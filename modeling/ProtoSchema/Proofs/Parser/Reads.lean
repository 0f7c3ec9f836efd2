import ProtoSchema.Parser.Basic
import ProtoSchema.Proofs.Number.Literal
import ProtoSchema.Proofs.Token.Layout

/-!
# What a parse reads

`Reads parse written value following` says that the parse takes exactly the lexemes `written` from
the front of the input and gives `value`, if `following` comes next. There is one rule for each word
of the parse vocabulary, and `Reads.bind` chains them, so that the proof of a grammar rule follows
its definition line by line. `ReadsEach` is the same for the items of a block. `TakesNumber` says
where a parse takes a number, so that what is read and what is refused there need one proof.
-/

namespace ProtoSchema.Parse

variable {α β : Type}

/-- Elements that contribute nothing. -/
@[simp]
theorem flatMap_nothing (source : List β) : source.flatMap (fun _ => ([] : List α)) = [] :=
  List.flatMap_eq_nil_iff.mpr fun _ _ => rfl

/-- A look at the kind of the next token. -/
theorem peekKind_bind (next : Option TokenKind → Parse β) (token : Token) (tokens : List Token) :
    (peekKind >>= next) (token :: tokens) = next (some token.lexeme.kind) (token :: tokens) :=
  rfl

/-- A literal that is no integer is refused. -/
theorem integer_of_none {token : Token} {spelling : Text}
    (hlexeme : token.lexeme = .number spelling)
    (hspelling : Integer.ofLiteral? spelling = none) (tokens : List Token) :
    integer (token :: tokens) = .error (.refused .invalidInteger (token :: tokens)) := by
  have hexpect : expect .number (token :: tokens) = .ok (spelling, tokens) := by
    rw [expect, hlexeme]
    rfl
  refine bind_eq_error_iff.mpr (.inr ⟨_, hexpect, ?_⟩)
  dsimp only
  rw [hspelling]

/-- The parse reads these lexemes as this value in front of what follows, wherever they stand. -/
def Reads (parse : Parse α) (written : List Lexeme) (value : α) (following : List Lexeme) : Prop :=
  ∀ tokens : List Token, tokens.map Token.lexeme = written ++ following →
    ∃ rest, rest.map Token.lexeme = following ∧ parse tokens = .ok (value, rest)

/-- The lexemes are there and do not start with a closing brace. -/
def StartsItem : List Lexeme → Prop
  | [] => False
  | first :: _ => first ≠ .punctuation .rightBrace

/-- The lexemes consist of items that are read as these values, each in front of anything. -/
inductive ReadsEach (item : Parse α) : List Lexeme → List α → Prop where
  | nil : ReadsEach item [] []
  | cons {first rest : List Lexeme} {value : α} {values : List α} (hstarts : StartsItem first)
      (hfirst : ∀ following, Reads item first value following)
      (hrest : ReadsEach item rest values) : ReadsEach item (first ++ rest) (value :: values)

namespace Reads

variable {written first second following : List Lexeme} {value : α} {result : β}
variable {parse : Parse α} {next : α → Parse β}

/-! ### Chains -/

/-- A pure parse reads nothing. -/
theorem pure (value : α) (following : List Lexeme) :
    Reads (Pure.pure value : Parse α) [] value following :=
  fun tokens h => ⟨tokens, h, rfl⟩

/-- A chain reads what its first parse reads and then what the next one does. -/
theorem bind (hfirst : Reads parse first value (second ++ following))
    (hnext : Reads (next value) second result following) :
    Reads (parse >>= next) (first ++ second) result following := by
  intro tokens h
  rw [List.append_assoc] at h
  obtain ⟨middle, hmiddle, hparse⟩ := hfirst tokens h
  obtain ⟨rest, hrest, hresult⟩ := hnext middle hmiddle
  refine ⟨rest, hrest, ?_⟩
  show (parse tokens).bind _ = _
  rw [hparse]
  exact hresult

/-- A chain that starts with a parse of one lexeme. -/
theorem cons {lexeme : Lexeme} (hfirst : Reads parse [lexeme] value (written ++ following))
    (hnext : Reads (next value) written result following) :
    Reads (parse >>= next) (lexeme :: written) result following :=
  bind hfirst hnext

/-- A chain whose first parse reads nothing. -/
theorem nothing (hfirst : Reads parse [] value (written ++ following))
    (hnext : Reads (next value) written result following) :
    Reads (parse >>= next) written result following :=
  bind hfirst hnext

/-- The last parse of a chain, from whose value the result is made. -/
theorem finish {f : α → β} (hfirst : Reads parse written value following)
    (hresult : f value = result) :
    Reads (parse >>= fun found => Pure.pure (f found)) written result following := by
  have h : Reads (parse >>= fun found => Pure.pure (f found)) (written ++ []) (f value) following :=
    bind hfirst (pure (f value) following)
  rwa [List.append_nil, hresult] at h

/-- The last parse of a chain, whose value is wrapped up. -/
theorem wrap (hfirst : Reads parse written value following) (f : α → β) :
    Reads (parse >>= fun found => Pure.pure (f found)) written (f value) following :=
  finish hfirst rfl

/-! ### The vocabulary -/

/-- A token of a kind is read as its value. -/
theorem expect {lexeme : Lexeme} {kind : TokenKind} (h : lexeme.kind = kind)
    (following : List Lexeme) :
    Reads (Parse.expect kind) [lexeme] lexeme.value following := by
  intro tokens htokens
  cases tokens with
  | nil => exact absurd htokens.symm (List.cons_ne_nil _ _)
  | cons token rest =>
      obtain ⟨rfl, hrest⟩ := List.cons.inj htokens
      exact ⟨rest, hrest, by rw [Parse.expect, if_pos h]⟩

/-- A keyword is read. -/
theorem keyword (word : Keyword) (following : List Lexeme) :
    Reads (Parse.keyword word) [.keyword word] () following :=
  wrap (expect rfl following) fun _ => ()

/-- A mark is read. -/
theorem mark (mark : Punctuation) (following : List Lexeme) :
    Reads (Parse.mark mark) [.punctuation mark] () following :=
  wrap (expect rfl following) fun _ => ()

/-- A lexeme that may be used as a name is read as one. -/
theorem nameOf {lexeme : Lexeme} (h : lexeme.isName) (following : List Lexeme) :
    Reads Parse.name [lexeme] lexeme.value following := by
  intro tokens htokens
  cases tokens with
  | nil => exact absurd htokens.symm (List.cons_ne_nil _ _)
  | cons token rest =>
      obtain ⟨rfl, hrest⟩ := List.cons.inj htokens
      exact ⟨rest, hrest, by rw [Parse.name, if_pos h]⟩

/-- A word is read as a name. -/
theorem name (word : Text) (following : List Lexeme) :
    Reads Parse.name [.ofWord word] word following := by
  have h := nameOf (Lexeme.isName_ofWord word) following
  rwa [Lexeme.value_ofWord] at h

/-- The literal of an integer is read as the integer. -/
theorem integerOf {spelling : Text} {value : Int} (h : Integer.ofLiteral? spelling = some value)
    (following : List Lexeme) : Reads Parse.integer [.number spelling] value following := by
  intro tokens htokens
  have hkind : (Lexeme.number spelling).kind = .number := rfl
  obtain ⟨rest, hrest, hspelling⟩ := expect hkind following tokens htokens
  refine ⟨rest, hrest, bind_eq_ok_iff.mpr ⟨_, hspelling, ?_⟩⟩
  dsimp only [Lexeme.value]
  rw [h]

/-- Any lexeme can be dropped. -/
theorem skip (lexeme : Lexeme) (following : List Lexeme) :
    Reads Parse.skip [lexeme] () following := by
  intro tokens htokens
  refine ⟨tokens.tail, ?_, rfl⟩
  rw [List.map_tail, htokens]
  rfl

/-- A look at the next lexeme reads nothing. -/
theorem peek {next : Option Lexeme → Parse β}
    (h : Reads (next (written ++ following).head?) written result following) :
    Reads (Parse.peek >>= next) written result following := by
  intro tokens htokens
  obtain ⟨rest, hrest, hresult⟩ := h tokens htokens
  refine ⟨rest, hrest, ?_⟩
  rw [← htokens, List.head?_map] at hresult
  exact hresult

/-- A look at the kind of the next lexeme reads nothing. -/
theorem peekKind {next : Option TokenKind → Parse β}
    (h : Reads (next ((written ++ following).head?.map Lexeme.kind)) written result following) :
    Reads (Parse.peekKind >>= next) written result following := by
  intro tokens htokens
  obtain ⟨rest, hrest, hresult⟩ := h tokens htokens
  refine ⟨rest, hrest, ?_⟩
  rw [← htokens, List.head?_map, Option.map_map] at hresult
  exact hresult

/-- A look at the whole input reads nothing. -/
theorem input {next : List Token → Parse β}
    (h : ∀ tokens, tokens.map Token.lexeme = written ++ following →
      Reads (next tokens) written result following) :
    Reads (get >>= next) written result following :=
  fun tokens htokens => h tokens htokens tokens htokens

/-- What is read is no longer than the input. -/
theorem length_le_of_input {tokens : List Token}
    (htokens : tokens.map Token.lexeme = written ++ following) :
    written.length ≤ tokens.length := by
  have hlength := congrArg List.length htokens
  simp only [List.length_map, List.length_append] at hlength
  omega

end Reads

/-! ### Places of numbers -/

/-- The parse reads the lexemes `front` and refuses what follows, wherever they stand. -/
def Refuses (parse : Parse α) (front : List Lexeme) (cause : Refusal) (following : List Lexeme) :
    Prop :=
  ∀ tokens : List Token, tokens.map Token.lexeme = front ++ following →
    ∃ rest, rest.map Token.lexeme = following ∧ parse tokens = .error (.refused cause rest)

/-- Behind the lexemes `front` the parse takes a number and goes on with it, whatever follows. -/
def TakesNumber (parse : Parse α) (front : List Lexeme) (next : Int → Parse α) : Prop :=
  ∀ (following : List Lexeme) (tokens : List Token),
    tokens.map Token.lexeme = front ++ following →
      ∃ rest, rest.map Token.lexeme = following ∧ parse tokens = (integer >>= next) rest

namespace TakesNumber

variable {parse : Parse α} {whole : Parse β} {next : Int → Parse β} {further : α → Parse β}
variable {front written following : List Lexeme} {spelling : Text}

/-- A number is taken at once. -/
theorem here (next : Int → Parse β) : TakesNumber (integer >>= next) [] next :=
  fun _ tokens htokens => ⟨tokens, htokens, rfl⟩

/-- A chain reads what its first parse reads before the next one takes the number. -/
theorem read {value : α} {first second : List Lexeme}
    (hfirst : ∀ following, Reads parse first value (second ++ following))
    (hnext : TakesNumber (further value) second next) :
    TakesNumber (parse >>= further) (first ++ second) next := by
  intro following tokens htokens
  rw [List.append_assoc] at htokens
  obtain ⟨middle, hmiddle, hparse⟩ := hfirst following tokens htokens
  obtain ⟨rest, hrest, hresult⟩ := hnext following middle hmiddle
  refine ⟨rest, hrest, ?_⟩
  show (parse tokens).bind _ = _
  rw [hparse]
  exact hresult

/-- A chain that starts with a parse of one lexeme. -/
theorem cons {value : α} {lexeme : Lexeme}
    (hfirst : ∀ following, Reads parse [lexeme] value (front ++ following))
    (hnext : TakesNumber (further value) front next) :
    TakesNumber (parse >>= further) (lexeme :: front) next :=
  read hfirst hnext

/-- A look at the whole input takes nothing. -/
theorem input {further : List Token → Parse β}
    (h : ∀ following tokens, tokens.map Token.lexeme = front ++ following →
      TakesNumber (further tokens) front next) : TakesNumber (get >>= further) front next :=
  fun following tokens htokens => h following tokens htokens following tokens htokens

/-- A literal is read as the integer that it stands for. -/
theorem reads (h : TakesNumber whole front next) {value : Int} {result : β}
    (hspelling : Integer.ofLiteral? spelling = some value)
    (hnext : Reads (next value) written result following) :
    Reads whole (front ++ .number spelling :: written) result following := by
  intro tokens htokens
  rw [List.append_assoc] at htokens
  obtain ⟨middle, hmiddle, hparse⟩ := h _ tokens htokens
  rw [hparse]
  exact Reads.cons (.integerOf hspelling _) hnext middle hmiddle

/-- A literal that stands for no integer is refused. -/
theorem refuses (h : TakesNumber whole front next)
    (hspelling : Integer.ofLiteral? spelling = none) (following : List Lexeme) :
    Refuses whole front .invalidInteger (.number spelling :: following) := by
  intro tokens htokens
  obtain ⟨middle, hmiddle, hparse⟩ := h _ tokens htokens
  obtain ⟨token, rest, rfl, hlexeme, -⟩ := List.map_eq_cons_iff.mp hmiddle
  refine ⟨_, hmiddle, hparse.trans ?_⟩
  show (integer (token :: rest)).bind _ = _
  rw [integer_of_none hlexeme hspelling]
  rfl

end TakesNumber

/-! ### Blocks -/

namespace ReadsEach

variable {item : Parse α} {written first second : List Lexeme} {values firsts seconds : List α}

/-- Items may be followed by more items. -/
theorem append (hfirst : ReadsEach item first firsts) (hsecond : ReadsEach item second seconds) :
    ReadsEach item (first ++ second) (firsts ++ seconds) := by
  induction hfirst with
  | nil => exact hsecond
  | cons hstarts hitem _ ih =>
      rw [List.append_assoc]
      exact cons hstarts hitem ih

/-- One item. -/
theorem single {value : α} (hstarts : StartsItem written)
    (h : ∀ following, Reads item written value following) : ReadsEach item written [value] := by
  have hone := cons hstarts h nil
  rwa [List.append_nil] at hone

/-- The items that a list is written as. -/
theorem flatMap {source : List β} {write : β → List Lexeme} {value : β → List α}
    (h : ∀ element ∈ source, ReadsEach item (write element) (value element)) :
    ReadsEach item (source.flatMap write) (source.flatMap value) := by
  induction source with
  | nil => exact nil
  | cons element source ih =>
      rw [List.flatMap_cons, List.flatMap_cons]
      exact (h element List.mem_cons_self).append
        (ih fun other hmem => h other (List.mem_cons_of_mem element hmem))

/-- The items that a list is written as, one for each element. -/
theorem map {source : List β} {write : β → List Lexeme} {value : β → α}
    (h : ∀ element ∈ source, StartsItem (write element) ∧
      ∀ following, Reads item (write element) (value element) following) :
    ReadsEach item (source.flatMap write) (source.map value) := by
  rw [List.map_eq_flatMap]
  exact flatMap fun element hmem => single (h element hmem).1 (h element hmem).2

/-- Every item has a lexeme. -/
theorem length_le (h : ReadsEach item written values) : values.length ≤ written.length := by
  induction h with
  | nil => exact Nat.le_refl 0
  | @cons first rest value values hstarts _ _ ih =>
      cases first with
      | nil => exact hstarts.elim
      | cons lexeme first =>
          simp only [List.cons_append, List.length_cons, List.length_append]
          omega

/-- Items are read up to a closing brace. -/
theorem untilBrace (h : ReadsEach item written values) {fuel : Nat} (hfuel : values.length ≤ fuel)
    (following : List Lexeme) :
    Reads (Parse.untilBrace item fuel) written values
      (.punctuation .rightBrace :: following) := by
  induction h generalizing fuel with
  | nil =>
      cases fuel with
      | zero => exact Reads.pure [] _
      | succ fuel => exact Reads.peekKind (Reads.pure [] _)
  | @cons first rest value values hstarts hfirst _ ih =>
      cases fuel with
      | zero => exact absurd hfuel (by simp)
      | succ fuel =>
          cases first with
          | nil => exact hstarts.elim
          | cons lexeme first =>
              -- The loop ends at a closing brace only, and no item starts with one.
              have hkind : lexeme.kind ≠ .punctuation .rightBrace :=
                fun hkind => hstarts (Lexeme.eq_punctuation_of_kind hkind)
              have hrest := ih (Nat.le_of_succ_le_succ hfuel)
              refine Reads.peekKind ?_
              show Reads (if lexeme.kind = .punctuation .rightBrace then _ else _) _ _ _
              rw [if_neg hkind]
              exact Reads.bind (hfirst _) (Reads.wrap hrest (value :: ·))

/-- Items between braces are read as a block. -/
theorem braced (h : ReadsEach item written values) (following : List Lexeme) :
    Reads (Parse.braced item) (Lexeme.block written) values following := by
  refine Reads.cons (Reads.mark .leftBrace _) (Reads.input fun tokens htokens => ?_)
  have hwritten := Reads.length_le_of_input htokens
  rw [List.length_append] at hwritten
  have hlength : values.length ≤ tokens.length := by
    have hvalues := h.length_le
    omega
  exact Reads.bind (h.untilBrace hlength _)
    (Reads.cons (Reads.mark .rightBrace _) (Reads.pure values _))

end ReadsEach

end ProtoSchema.Parse
