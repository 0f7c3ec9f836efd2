import ProtoSchema.Proofs.Parser.Yields
import ProtoSchema.Proofs.Token.Separator
import ProtoSchema.Proofs.Token.Verbatim

/-!
# The text of an aggregate

An aggregate ends at the first place where the closing braces are as many as the opening ones, and
it is refused exactly where there is none. Its text is the tokens as they are with blanks between
them, but a string stands between double quotes without its escapes. Main statement:
`Parse.constant_aggregate`. The text is scanned as the tokens taken exactly when no string among
them has a double quote or a backslash.
-/

namespace ProtoSchema

namespace Lexeme

/-- The text of the lexeme in an aggregate needs no escape. -/
def KeepsText : Lexeme → Prop
  | string value => value.IsVerbatim
  | _ => True

end Lexeme

/-! ### Parts as text -/

namespace Parse

open Lexer (lexemes IsSeparator)

/-- A lexeme that needs no escape is a part as it is written. -/
theorem aggregatePart_of_keepsText {lexeme : Lexeme} (h : lexeme.KeepsText) :
    aggregatePart lexeme = lexeme.written := by
  cases lexeme with
  | string value => exact (Text.IsVerbatim.literal_eq h).symm
  | keyword | punctuation | identifier | number => rfl

/-- A part that is scanned as its lexeme needs no escape. -/
theorem keepsText_of_lexemes {lexeme : Lexeme} {rest : Text} {others : List Lexeme}
    (h : lexemes (aggregatePart lexeme ++ rest) = .ok (lexeme :: others)) : lexeme.KeepsText := by
  cases lexeme with
  | string value =>
      have hquoted : aggregatePart (.string value) ++ rest =
          CodePoint.ofChar '"' :: (value ++ CodePoint.ofChar '"' :: rest) := by
        show CodePoint.ofChar '"' :: value ++ [CodePoint.ofChar '"'] ++ rest = _
        rw [List.append_assoc]
        rfl
      rw [hquoted] at h
      exact Lexer.isVerbatim_of_lexemes h
  | keyword | punctuation | identifier | number => trivial

/-- Parts that need no escape spell their lexemes. -/
theorem relaid_parts {parts : List Lexeme} (h : ∀ lexeme ∈ parts, lexeme.KeepsText) :
    Lexeme.Relaid parts (Text.join (Text.ofString " ") (parts.map aggregatePart)) := by
  match parts, h with
  | [], _ => exact .nil
  | [last], h =>
      show Lexeme.Relaid [last] (aggregatePart last)
      rw [aggregatePart_of_keepsText (h last List.mem_cons_self)]
      exact .last last
  | first :: next :: rest, h =>
      have hrest := relaid_parts fun lexeme hmem => h lexeme (List.mem_cons_of_mem first hmem)
      have hblank : IsSeparator (Text.ofString " ") := .blank rfl
      show Lexeme.Relaid _ (aggregatePart first ++ Text.ofString " " ++ _)
      rw [aggregatePart_of_keepsText (h first List.mem_cons_self), List.append_assoc]
      exact .cons hblank hrest

/-- Parts that are scanned as their lexemes need no escape. -/
theorem keepsText_of_parts {parts : List Lexeme}
    (h : lexemes (Text.join (Text.ofString " ") (parts.map aggregatePart)) = .ok parts) :
    ∀ lexeme ∈ parts, lexeme.KeepsText := by
  match parts, h with
  | [], _ => exact fun lexeme hmem => absurd hmem List.not_mem_nil
  | [last], h =>
      rw [List.forall_mem_singleton]
      have hlast : lexemes (aggregatePart last ++ []) = .ok [last] := by
        rw [List.append_nil]
        exact h
      exact keepsText_of_lexemes hlast
  | first :: next :: rest, h =>
      have hjoin : lexemes (aggregatePart first ++ CodePoint.ofChar ' ' ::
          Text.join (Text.ofString " ") ((next :: rest).map aggregatePart)) =
          .ok (first :: next :: rest) := by
        rw [← h]
        show _ = lexemes (aggregatePart first ++ Text.ofString " " ++ _)
        rw [List.append_assoc]
        rfl
      have hfirst := keepsText_of_lexemes hjoin
      have hspelled := Lexer.isSpelled_of_mem_lexemes h List.mem_cons_self
      -- What is scanned behind the first part are the other lexemes.
      rw [aggregatePart_of_keepsText hfirst, Lexer.lexemes_spelled hspelled (by rfl),
        Lexer.lexemes_blank (.inl rfl)] at hjoin
      obtain ⟨others, hothers, hcons⟩ := map_eq_ok_iff.mp hjoin
      obtain rfl := (List.cons.inj hcons).2
      exact List.forall_mem_cons.mpr ⟨hfirst, keepsText_of_parts hothers⟩

/-- Parts are scanned as their lexemes exactly when a scan can find each of them and none needs an
escape. -/
theorem lexemes_parts_iff {parts : List Lexeme} :
    lexemes (Text.join (Text.ofString " ") (parts.map aggregatePart)) = .ok parts ↔
      ∀ lexeme ∈ parts, lexeme.IsSpelled ∧ lexeme.KeepsText := by
  constructor
  · intro h lexeme hmem
    exact ⟨Lexer.isSpelled_of_mem_lexemes h hmem, keepsText_of_parts h lexeme hmem⟩
  · intro h
    have hrelaid := relaid_parts fun lexeme hmem => (h lexeme hmem).2
    exact Lexer.lexemes_relaid hrelaid fun lexeme hmem => (h lexeme hmem).1

/-! ### Braces -/

/-- How many of the tokens are closing braces. -/
def closings (tokens : List Token) : Nat :=
  (tokens.map Token.lexeme).count (.punctuation .rightBrace)

/-- The tokens have as many closing braces as opening ones. -/
def IsBalanced (tokens : List Token) : Prop :=
  closings tokens = braces tokens

/-- The tokens close no more braces than they open and `depth` further ones, as far as they are
read. -/
def StaysOpen (depth : Nat) (tokens : List Token) : Prop :=
  ∀ front, front <+: tokens → closings front ≤ braces front + depth

/-- The last of the tokens closes all braces that they open and one more than `depth` further
ones. -/
def Closes (depth : Nat) (tokens : List Token) : Prop :=
  StaysOpen depth tokens.dropLast ∧ closings tokens = braces tokens + (depth + 1)

theorem braces_cons (token : Token) (tokens : List Token) :
    braces (token :: tokens) = braces [token] + braces tokens := by
  rw [braces, List.map_cons, ← List.singleton_append, List.count_append]
  rfl

theorem closings_cons (token : Token) (tokens : List Token) :
    closings (token :: tokens) = closings [token] + closings tokens := by
  rw [closings, List.map_cons, ← List.singleton_append, List.count_append]
  rfl

variable {depth deeper : Nat} {token : Token} {tokens taken : List Token}

/-- An opening brace alone. -/
theorem braces_of_leftBrace (htoken : token.lexeme = .punctuation .leftBrace) :
    braces [token] = 1 ∧ closings [token] = 0 := by
  simp [braces, closings, htoken]

/-- Tokens that stay open do so behind one that changes the depth. -/
theorem StaysOpen.cons (hdepth : closings [token] + deeper = braces [token] + depth)
    (h : StaysOpen deeper tokens) : StaysOpen depth (token :: tokens) := by
  intro front hfront
  cases front with
  | nil => exact Nat.zero_le _
  | cons first front =>
      obtain ⟨rfl, hrest⟩ := List.cons_prefix_cons.mp hfront
      have hopen := h front hrest
      rw [braces_cons, closings_cons]
      omega

/-- Tokens that close a depth do so behind one that changes it. -/
theorem Closes.cons (hdepth : closings [token] + deeper = braces [token] + depth)
    (h : Closes deeper taken) : Closes depth (token :: taken) := by
  obtain ⟨hopen, hclosed⟩ := h
  have hne : taken ≠ [] := by
    intro hnil
    rw [hnil] at hclosed
    exact absurd hclosed (Nat.zero_ne_add_one _)
  refine ⟨?_, ?_⟩
  · rw [List.dropLast_cons_of_ne_nil hne]
    exact hopen.cons hdepth
  · rw [braces_cons, closings_cons]
    omega

/-- A token closes the last brace, or the parts behind it are those at the depth that it leaves. -/
theorem aggregateParts_step (depth : Nat) (token : Token) (tokens : List Token) :
    (Closes depth [token] ∧
      aggregateParts depth (token :: tokens) = some ([aggregatePart token.lexeme], tokens)) ∨
    ∃ deeper, closings [token] + deeper = braces [token] + depth ∧
      aggregateParts depth (token :: tokens) = (aggregateParts deeper tokens).bind fun found =>
        some (aggregatePart token.lexeme :: found.1, found.2) := by
  obtain ⟨lexeme, position⟩ := token
  cases lexeme with
  | punctuation mark =>
      cases mark with
      | leftBrace =>
          refine .inr ⟨depth + 1, ?_, rfl⟩
          show 0 + (depth + 1) = 1 + depth
          omega
      | rightBrace =>
          cases depth with
          | zero =>
              refine .inl ⟨⟨fun front hfront => ?_, rfl⟩, rfl⟩
              obtain rfl := List.prefix_nil.mp hfront
              exact Nat.le_refl _
          | succ depth =>
              refine .inr ⟨depth, ?_, rfl⟩
              show 1 + depth = 0 + (depth + 1)
              omega
      | _ => exact .inr ⟨depth, rfl, rfl⟩
  | keyword | identifier | number | string => exact .inr ⟨depth, rfl, rfl⟩

/-- The parts of an aggregate are those of the tokens up to the one that closes it, and there are
none if no token does. -/
theorem aggregateParts_cases (depth : Nat) (tokens : List Token) :
    (StaysOpen depth tokens ∧ aggregateParts depth tokens = none) ∨
    ∃ taken rest, tokens = taken ++ rest ∧ Closes depth taken ∧
      aggregateParts depth tokens =
        some (taken.map fun token => aggregatePart token.lexeme, rest) := by
  induction tokens generalizing depth with
  | nil =>
      refine .inl ⟨fun front hfront => ?_, rfl⟩
      obtain rfl := List.prefix_nil.mp hfront
      exact Nat.zero_le _
  | cons token tokens ih =>
      rcases aggregateParts_step depth token tokens with
        ⟨hcloses, hparts⟩ | ⟨deeper, hdepth, hparts⟩
      · exact .inr ⟨[token], tokens, rfl, hcloses, hparts⟩
      · rw [hparts]
        rcases ih deeper with ⟨hopen, hnone⟩ | ⟨taken, rest, rfl, hcloses, hsome⟩
        · exact .inl ⟨hopen.cons hdepth, by rw [hnone]; rfl⟩
        · exact .inr ⟨token :: taken, rest, rfl, hcloses.cons hdepth, by rw [hsome]; rfl⟩

/-! ### Aggregates as values -/

/-- The parse takes the shortest balanced piece at the front of the tokens. -/
structure TakesShortest (tokens taken rest : List Token) : Prop where
  tokens_eq : tokens = taken ++ rest
  ne_nil : taken ≠ []
  balanced : IsBalanced taken
  shortest : ∀ front, front <+: tokens → front ≠ [] → IsBalanced front → taken <+: front

/-- Tokens behind an opening brace that never close it have no balanced front. -/
theorem StaysOpen.not_isBalanced (h : StaysOpen 0 tokens)
    (htoken : token.lexeme = .punctuation .leftBrace) {front : List Token}
    (hfront : front <+: token :: tokens) (hne : front ≠ []) : ¬ IsBalanced front := by
  intro hbalanced
  cases front with
  | nil => exact hne rfl
  | cons first front =>
      obtain ⟨rfl, hrest⟩ := List.cons_prefix_cons.mp hfront
      have hopen := h front hrest
      obtain ⟨hbraces, hclosings⟩ := braces_of_leftBrace htoken
      rw [IsBalanced, braces_cons, closings_cons] at hbalanced
      omega

/-- An opening brace and the tokens that close it are the shortest balanced front. -/
theorem Closes.takesShortest (h : Closes 0 taken) (htoken : token.lexeme = .punctuation .leftBrace)
    (rest : List Token) : TakesShortest (token :: (taken ++ rest)) (token :: taken) rest where
  tokens_eq := rfl
  ne_nil := List.cons_ne_nil _ _
  balanced := by
    have hclosed := h.2
    obtain ⟨hbraces, hclosings⟩ := braces_of_leftBrace htoken
    rw [IsBalanced, braces_cons, closings_cons]
    omega
  shortest front hfront hne hbalanced := by
    have htaken : token :: taken <+: token :: (taken ++ rest) := List.prefix_append _ rest
    rcases Nat.lt_or_ge front.length (token :: taken).length with hshort | hlong
    · -- A front that ends before the last token taken is still open.
      have hinit : front <+: token :: taken.dropLast := by
        refine List.prefix_of_prefix_length_le hfront ?_ ?_
        · exact ((List.prefix_cons_inj token).mpr (List.dropLast_prefix taken)).trans htaken
        · rw [List.length_cons, List.length_dropLast]
          rw [List.length_cons] at hshort
          omega
      exact absurd hbalanced (h.1.not_isBalanced htoken hinit hne)
    · exact List.prefix_of_prefix_length_le htaken hfront hlong

/-- An aggregate is accepted exactly if a front of the tokens is balanced. The shortest one is
taken, and its text is scanned as the tokens taken exactly when a scan can find each of them and no
string among them has a double quote or a backslash. -/
theorem constant_aggregate {token : Token} (htoken : token.lexeme = .punctuation .leftBrace)
    (tokens : List Token) :
    ((∃ value rest, constant (token :: tokens) = .ok (value, rest)) ↔
      ∃ front, front <+: token :: tokens ∧ front ≠ [] ∧ IsBalanced front) ∧
    ∀ value rest, constant (token :: tokens) = .ok (value, rest) →
      ∃ taken text, TakesShortest (token :: tokens) taken rest ∧ value = .text text ∧
        (lexemes text = .ok (taken.map Token.lexeme) ↔
          ∀ token ∈ taken, token.lexeme.IsSpelled ∧ token.lexeme.KeepsText) := by
  have haggregate : constant (token :: tokens) = aggregate tokens := by
    rw [constant, htoken]
  rw [haggregate, aggregate]
  rcases aggregateParts_cases 0 tokens with ⟨hopen, hnone⟩ | ⟨taken, rest, rfl, hcloses, hsome⟩
  · rw [hnone]
    refine ⟨⟨?_, ?_⟩, ?_⟩
    · intro haccepted
      obtain ⟨value, rest, hvalue⟩ := haccepted
      cases hvalue
    · intro hbalanced
      obtain ⟨front, hfront, hne, hbalanced⟩ := hbalanced
      exact absurd hbalanced (hopen.not_isBalanced htoken hfront hne)
    · intro value rest hvalue
      cases hvalue
  · rw [hsome]
    have hshortest := hcloses.takesShortest htoken rest
    refine ⟨⟨fun _ => ?_, fun _ => ⟨_, rest, rfl⟩⟩, ?_⟩
    · exact ⟨token :: taken, List.prefix_append _ rest, List.cons_ne_nil _ _, hshortest.balanced⟩
    · intro value left hvalue
      obtain ⟨rfl, rfl⟩ := Prod.mk.inj (Except.ok.inj hvalue)
      refine ⟨token :: taken, _, hshortest, rfl, ?_⟩
      -- The opening brace is the first part.
      have hparts : Punctuation.leftBrace.spelling ::
          (taken.map fun token => aggregatePart token.lexeme) =
          ((token :: taken).map Token.lexeme).map aggregatePart := by
        rw [List.map_map, List.map_cons, Function.comp_apply, htoken]
        rfl
      rw [hparts, lexemes_parts_iff]
      exact List.forall_mem_map

/-- An aggregate with a brace in a string and another aggregate in it, and then a semicolon. -/
def nestedAggregate : List Token :=
  [.punctuation .leftBrace, .identifier "a", .string "\x7d", .punctuation .leftBrace,
    .punctuation .rightBrace, .punctuation .rightBrace, .punctuation .semicolon].map
      (⟨·, Position.start⟩)

/-- The brace in the string does not close the aggregate, and its text is scanned as what was
taken. -/
theorem constant_aggregate_nested :
    ∃ text, constant nestedAggregate = .ok (.text text, nestedAggregate.drop 6) ∧
      lexemes text = .ok ((nestedAggregate.take 6).map Token.lexeme) := by
  have haccepted : constant nestedAggregate =
      .ok (.text "\x7b a \"\x7d\" \x7b \x7d \x7d", nestedAggregate.drop 6) := rfl
  have hbrace : (Token.mk (.punctuation .leftBrace) Position.start).lexeme =
      .punctuation .leftBrace := rfl
  obtain ⟨taken, text, hshortest, htext, hiff⟩ := (constant_aggregate hbrace _).2 _ _ haccepted
  have htaken : nestedAggregate.take 6 = taken :=
    List.append_cancel_right ((List.take_append_drop 6 _).trans hshortest.tokens_eq)
  obtain rfl := Constant.text.inj htext
  refine ⟨_, haccepted, ?_⟩
  rw [htaken]
  refine hiff.mpr ?_
  rw [← htaken]
  have hscanned : lexemes "a" = .ok [.identifier "a"] := rfl
  have hword : (Lexeme.identifier "a").IsSpelled :=
    Lexer.isSpelled_of_mem_lexemes hscanned List.mem_cons_self
  have hstring : (Lexeme.string "\x7d").KeepsText := ⟨by decide, by decide⟩
  intro token hmem
  simp only [nestedAggregate, List.map_cons, List.map_nil, List.take_succ_cons, List.take_zero,
    List.mem_cons, List.not_mem_nil, or_false] at hmem
  rcases hmem with rfl | rfl | rfl | rfl | rfl | rfl
  · exact ⟨trivial, trivial⟩
  · exact ⟨hword, trivial⟩
  · exact ⟨trivial, hstring⟩
  · exact ⟨trivial, trivial⟩
  · exact ⟨trivial, trivial⟩
  · exact ⟨trivial, trivial⟩

/-- A double quote in a string is written as it is, so another string ends at it. -/
theorem constant_aggregate_escaped :
    lexemes "\x7b\"\\\"\"\x7d" =
        .ok [.punctuation .leftBrace, .string "\"", .punctuation .rightBrace] ∧
      constant ([.punctuation .leftBrace, .string "\"", .punctuation .rightBrace].map
        (⟨·, Position.start⟩)) = .ok (.text "\x7b \"\"\" \x7d", []) ∧
      lexemes "\x7b \"\"\" \x7d" = .ok [.punctuation .leftBrace, .string "", .string " \x7d"] ∧
      lexemes "\x7b \"\"\" \x7d" ≠
        .ok [.punctuation .leftBrace, .string "\"", .punctuation .rightBrace] := by
  have hfound : lexemes "\x7b \"\"\" \x7d" =
      .ok [.punctuation .leftBrace, .string "", .string " \x7d"] := rfl
  refine ⟨rfl, rfl, hfound, fun h => ?_⟩
  have hlast := (List.cons.inj (List.cons.inj (Except.ok.inj (hfound.symm.trans h))).2).1
  cases Lexeme.string.inj hlast

end Parse

end ProtoSchema
