import ProtoSchema.Proofs.Parser.Consumes
import ProtoSchema.Proofs.Parser.Fuel

/-!
# The grammar from left to right

Every rule of the grammar reads from left to right, up to the parse of a whole file. Two rules look
further ahead than one lexeme. A group is told from a field by the lexeme after its name, which
`field_eq` puts off until the number and the options are read, since both rules read them alike. The
word that makes a side of a procedure a stream is a type name unless an identifier follows, so
`streamedType` reads the word and the type together.
-/

namespace ProtoSchema.Parse

variable {α β : Type} {parse : Parse α} {next : α → Parse β}

/-- Neither branch asks for a constant at once. -/
theorem not_asksConstant_ite {condition : Prop} [Decidable condition] {other : Parse α}
    (hparse : ¬ AsksConstant parse) (hother : ¬ AsksConstant other) :
    ¬ AsksConstant (if condition then parse else other) := by
  split
  · exact hparse
  · exact hother

/-- A token of the wrong kind is refused, and so is the end of the input. -/
theorem expect_eq_error {kind : TokenKind} {tokens : List Token} {fault : Fault}
    (h : expect kind tokens = .error fault) : fault = .refused (.expected kind) tokens := by
  cases tokens with
  | nil => exact (Except.error.inj h).symm
  | cons token rest =>
      rw [expect] at h
      split at h
      next => exact ok_error_elim rfl h
      next => exact (Except.error.inj h).symm

namespace LeftToRight

/-- What follows a mark may ask for a constant. -/
theorem mark_bind {mark : Punctuation} {next : Unit → Parse β} (hnext : LeftToRight (next ())) :
    LeftToRight (Parse.mark mark >>= next) := by
  refine byLexeme (.expected (.punctuation mark)) rfl (fun lexeme => ?_) nofun
  by_cases hkind : lexeme.kind = .punctuation mark
  · refine .goesOn hnext fun position rest => bind_of_ok ?_
    exact bind_of_ok (if_pos hkind)
  · refine .refuses (.expected (.punctuation mark)) fun position rest => bind_of_error ?_
    exact bind_of_error (if_neg hkind)

/-! ### Options -/

/-- A further part of an option name. -/
theorem optionSubname : LeftToRight Parse.optionSubname := by
  refine bind peek (fun lexeme? => ?_) fun lexeme? => ?_
  · split
    · exact ite (wrap skip fun _ => _) (pure [])
    · exact pure []
  · split
    · exact not_asksConstant_ite nofun nofun
    · exact nofun

/-- The name of an option. -/
theorem optionName : LeftToRight Parse.optionName := by
  refine bind peekKind (fun kind? => ite ?_ name) fun kind? => not_asksConstant_ite nofun nofun
  refine bind skip (fun _ => ?_) fun _ => nofun
  refine bind (expect .identifier) (fun extension => ?_) fun _ => nofun
  exact bind (mark _) (fun _ => wrap optionSubname fun subname => _) fun _ => nofun

/-- A name and the value set for it. -/
theorem optionSetting : LeftToRight Parse.optionSetting :=
  bind optionName (fun name => mark_bind (wrap constant (OptionSetting.mk name))) fun _ => nofun

/-- An option statement. -/
theorem optionStatement : LeftToRight Parse.optionStatement :=
  bind (keyword _) (fun _ => bind optionSetting (fun setting => wrap (mark _) fun _ => setting)
    fun _ => nofun) fun _ => nofun

/-- A further setting follows its comma. -/
theorem moreSettings_rounds :
    Rounds Parse.moreSettings Parse.peekKind (fun kind? => kind? ≠ some (.punctuation .comma))
      (Parse.skip >>= fun _ => Parse.optionSetting) List.cons [] where
  zero := rfl
  succ fuel := by
    refine congrArg (Parse.peekKind >>= ·) (funext fun kind? => ?_)
    by_cases hcomma : kind? = some (.punctuation .comma)
    · simp [hcomma]
    · simp [hcomma]
  ends := ⟨none, rfl, rfl⟩

/-- A comma and the setting after it. -/
theorem furtherSetting : LeftToRight (Parse.skip >>= fun _ => Parse.optionSetting) :=
  bind skip (fun _ => optionSetting) fun _ => nofun

/-- A further setting takes a token. -/
theorem takes_furtherSetting : Takes (Parse.skip >>= fun _ => Parse.optionSetting) :=
  furtherSetting.takes fun _ _ => nofun

/-- The options of a field. -/
theorem bracketOptions : LeftToRight Parse.bracketOptions := by
  have hothers :=
    moreSettings_rounds.leftToRight_loop peekKind furtherSetting nofun takes_furtherSetting
  refine bind peekKind (fun kind? => ite ?_ (pure [])) fun kind? => not_asksConstant_ite nofun nofun
  refine bind skip (fun _ => bind optionSetting (fun first => ?_) fun _ => nofun) fun _ => nofun
  show LeftToRight ((get >>= fun tokens => Parse.moreSettings tokens.length) >>= fun others =>
    Parse.mark .rightBracket >>= fun _ => Pure.pure (first :: others))
  exact bind hothers (fun others => wrap (mark _) fun _ => first :: others) fun _ => nofun

/-! ### Enumerations and services -/

/-- A value of an enumeration. -/
theorem enumValue : LeftToRight Parse.enumValue := by
  refine bind name (fun _ => ?_) fun _ => nofun
  refine bind (mark _) (fun _ => ?_) fun _ => nofun
  refine bind integer (fun _ => ?_) fun _ => nofun
  refine bind bracketOptions (fun _ => ?_) fun _ => nofun
  exact wrap (mark _) fun _ => _

/-- An entry of an enumeration. -/
theorem enumEntry : LeftToRight Parse.enumEntry := by
  refine bind peekKind (fun kind? => ?_) fun kind? => ?_
  · split
    · exact wrap optionStatement fun setting => ([], [setting])
    · exact wrap skipStatement fun _ => ([], [])
    · exact wrap skip fun _ => ([], [])
    · exact wrap enumValue fun value => ([value], [])
  · split <;> exact nofun

/-- An entry of an enumeration takes a token. -/
theorem takes_enumEntry : Takes Parse.enumEntry :=
  enumEntry.takes fun lexeme value => by
    cases lexeme with
    | keyword word => cases word <;> exact nofun
    | punctuation mark => cases mark <;> exact nofun
    | identifier | number | string => exact nofun

/-- An enumeration. -/
theorem enumType : LeftToRight Parse.enumType := by
  refine bind (keyword _) (fun _ => bind name (fun _ => ?_) fun _ => nofun) fun _ => nofun
  exact wrap (braced enumEntry nofun takes_enumEntry) fun entries => _

/-- One side of a procedure, between its parentheses. -/
def streamedType : Parse (Bool × Text) := do
  let streams ← streaming
  let type ← Parse.expect .identifier
  return (streams, type)

/-- The tokens start with the word for a stream and an identifier. -/
def startsStream : List Token → Bool
  | first :: second :: _ => first.lexeme = .keyword .stream && second.lexeme.kind = .identifier
  | _ => false

/-- Whether a stream comes depends on the next two lexemes. -/
theorem startsStream_eq {tokens others : List Token}
    (h : SameLexemes (tokens.take 2) (others.take 2)) :
    startsStream tokens = startsStream others := by
  rcases tokens with _ | ⟨first, _ | ⟨second, tokens⟩⟩ <;>
    rcases others with _ | ⟨head, _ | ⟨next, others⟩⟩ <;>
      simp_all [SameLexemes, startsStream]

/-- The word for a stream is taken where one starts. -/
theorem streaming_eq (tokens : List Token) :
    streaming tokens =
      if startsStream tokens then .ok (true, tokens.tail) else .ok (false, tokens) := by
  rcases tokens with _ | ⟨first, _ | ⟨second, tokens⟩⟩
  · rfl
  · rfl
  · show (if (_ && _) = true then Parse.skip >>= fun _ => Pure.pure true else Pure.pure false :
      Parse Bool) _ = if (_ && _) = true then _ else _
    split <;> rfl

/-- A stream starts with two tokens. -/
theorem exists_of_startsStream {tokens : List Token} (h : startsStream tokens) :
    ∃ first second rest, tokens = first :: second :: rest := by
  rcases tokens with _ | ⟨first, _ | ⟨second, rest⟩⟩
  · exact absurd h Bool.false_ne_true
  · exact absurd h Bool.false_ne_true
  · exact ⟨first, second, rest, rfl⟩

/-- The word for a stream is taken with the identifier after it. -/
theorem streamedType_of_stream {first second : Token} {rest : List Token}
    (h : startsStream (first :: second :: rest)) :
    streamedType (first :: second :: rest) = .ok ((true, second.lexeme.value), rest) := by
  have hstreaming := streaming_eq (first :: second :: rest)
  rw [if_pos h] at hstreaming
  have hkind : second.lexeme.kind = .identifier :=
    of_decide_eq_true (Bool.and_eq_true_iff.mp h).2
  exact (bind_of_ok hstreaming).trans (bind_of_ok (if_pos hkind))

/-- Without a stream the type is the next token. -/
theorem streamedType_of_not_stream {tokens : List Token} (h : startsStream tokens = false) :
    streamedType tokens =
      (Parse.expect .identifier >>= fun type => Pure.pure (false, type)) tokens := by
  refine bind_of_ok ?_
  rw [streaming_eq, h, if_neg Bool.false_ne_true]

/-- Without a stream the side of a procedure is its type, and an identifier comes next. -/
theorem streamedType_eq_ok {tokens rest : List Token} {value : Bool × Text}
    (hstream : startsStream tokens = false) (h : streamedType tokens = .ok (value, rest)) :
    ∃ token, tokens = token :: rest ∧ token.lexeme.kind = .identifier ∧
      value = (false, token.lexeme.value) := by
  rw [streamedType_of_not_stream hstream] at h
  obtain ⟨⟨type, middle⟩, hexpect, h⟩ := bind_eq_ok_iff.mp h
  obtain ⟨rfl, rfl⟩ := Prod.mk.inj (Except.ok.inj h)
  obtain ⟨token, rfl, hkind, rfl⟩ := expect_eq_ok hexpect
  exact ⟨token, rfl, hkind, rfl⟩

/-- Where the side of a procedure is refused, its first token is. -/
theorem streamedType_eq_error {tokens : List Token} {fault : Fault}
    (h : streamedType tokens = .error fault) :
    startsStream tokens = false ∧ fault = .refused (.expected .identifier) tokens := by
  cases hstream : startsStream tokens with
  | true =>
      obtain ⟨first, second, rest, rfl⟩ := exists_of_startsStream hstream
      exact ok_error_elim (streamedType_of_stream hstream) h
  | false =>
      rw [streamedType_of_not_stream hstream] at h
      rcases bind_eq_error_iff.mp h with hexpect | ⟨⟨type, rest⟩, -, hpure⟩
      · exact ⟨rfl, expect_eq_error hexpect⟩
      · exact ok_error_elim rfl hpure

/-- A single identifier is a type. -/
theorem streamedType_of_identifier {token : Token} (h : token.lexeme.kind = .identifier)
    (rest : List Token) :
    streamedType (token :: rest) = .ok ((false, token.lexeme.value), rest) := by
  have hword : token.lexeme ≠ .keyword .stream := fun hword => by
    rw [hword] at h
    exact TokenKind.noConfusion h
  have hstream : startsStream (token :: rest) = false := by
    cases rest with
    | nil => rfl
    | cons second rest => simp [startsStream, hword]
  rw [streamedType_of_not_stream hstream]
  exact bind_of_ok (if_pos h)

/-- One side of a procedure without its parentheses. -/
theorem leftToRight_streamedType : LeftToRight streamedType where
  ok {tokens rest value} h := by
    cases hstream : startsStream tokens with
    | true =>
        obtain ⟨first, second, later, rfl⟩ := exists_of_startsStream hstream
        obtain ⟨rfl, rfl⟩ :=
          Prod.mk.inj (Except.ok.inj ((streamedType_of_stream hstream).symm.trans h))
        refine ⟨[first, second], rfl, fun like following hlike _ => ?_⟩
        obtain ⟨head, tail, rfl, hhead, htail⟩ := hlike.cons_right
        obtain ⟨middle, rfl, hmiddle⟩ := htail.singleton_right
        have hsame : startsStream (head :: middle :: following) =
            startsStream (first :: second :: later) :=
          startsStream_eq (by simp [SameLexemes, hhead, hmiddle])
        rw [← hmiddle]
        exact streamedType_of_stream (hsame.trans hstream)
    | false =>
        obtain ⟨token, rfl, hkind, rfl⟩ := streamedType_eq_ok hstream h
        refine ⟨[token], rfl, fun like following hlike _ => ?_⟩
        obtain ⟨head, rfl, hhead⟩ := hlike.singleton_right
        rw [← hhead] at hkind ⊢
        exact streamedType_of_identifier hkind following
  refused {tokens rest cause} h := by
    obtain ⟨hstream, hfault⟩ := streamedType_eq_error h
    obtain ⟨rfl, rfl⟩ := Fault.refused.inj hfault
    refine ⟨[], rfl, fun like following hlike hfollowing => ?_⟩
    obtain rfl := SameLexemes.nil_right.mp hlike
    rw [streamedType_of_not_stream hstream] at h
    have hplain := wrap (expect .identifier) (Prod.mk false)
    obtain ⟨taken, htokens, htaken⟩ := hplain.refused h
    obtain rfl := List.self_eq_append_left.mp htokens
    rw [List.nil_append, streamedType_of_not_stream ((startsStream_eq hfollowing).trans hstream)]
    exact htaken [] following (SameLexemes.refl _) hfollowing
  notNumeric h := Fault.noConfusion (streamedType_eq_error h).2
  asked h := absurd (Fault.refused.inj (streamedType_eq_error h).2).1 nofun

/-- One side of a procedure. -/
theorem methodSide : LeftToRight Parse.methodSide := by
  have hside := bind leftToRight_streamedType
    (fun side => wrap (mark .rightParen) fun _ => side) fun _ => nofun
  simp only [streamedType, bind_assoc, pure_bind] at hside
  exact bind (mark _) (fun _ => hside) fun _ => nofun

/-- An entry of the block of a procedure. -/
theorem methodEntry : LeftToRight Parse.methodEntry :=
  bind peekKind (fun _ => ite (wrap optionStatement fun setting => [setting])
    (wrap (mark _) fun _ => [])) fun _ => not_asksConstant_ite nofun nofun

/-- An entry of the block of a procedure takes a token. -/
theorem takes_methodEntry : Takes Parse.methodEntry :=
  methodEntry.takes fun lexeme value => by
    cases lexeme with
    | keyword word => cases word <;> exact nofun
    | punctuation mark => cases mark <;> exact nofun
    | identifier | number | string => exact nofun

/-- The options of a procedure. -/
theorem methodOptions : LeftToRight Parse.methodOptions :=
  bind peekKind (fun _ => ite (wrap (braced methodEntry nofun takes_methodEntry) List.flatten)
    (wrap (mark _) fun _ => [])) fun _ => not_asksConstant_ite nofun nofun

/-- A procedure. -/
theorem method : LeftToRight Parse.method := by
  refine bind (keyword _) (fun _ => bind name (fun _ => ?_) fun _ => nofun) fun _ => nofun
  refine bind methodSide (fun _ => bind (keyword _) (fun _ => ?_) fun _ => nofun) fun _ => nofun
  exact bind methodSide (fun _ => wrap methodOptions fun _ => _) fun _ => nofun

/-- An entry of a service. -/
theorem serviceEntry : LeftToRight Parse.serviceEntry := by
  refine bind peekKind (fun kind? => ?_) fun kind? => ?_
  · split
    · exact wrap method fun method => ([method], [])
    · exact wrap optionStatement fun setting => ([], [setting])
    · exact wrap skip fun _ => ([], [])
    · exact refuse (by simp)
  · split <;> exact nofun

/-- An entry of a service takes a token. -/
theorem takes_serviceEntry : Takes Parse.serviceEntry :=
  serviceEntry.takes fun lexeme value => by
    cases lexeme with
    | keyword word => cases word <;> exact nofun
    | punctuation mark => cases mark <;> exact nofun
    | identifier | number | string => exact nofun

/-- A service. -/
theorem service : LeftToRight Parse.service := by
  refine bind (keyword _) (fun _ => bind name (fun _ => ?_) fun _ => nofun) fun _ => nofun
  exact wrap (braced serviceEntry nofun takes_serviceEntry) fun _ => _

/-! ### Messages -/

/-- The label of a field. -/
theorem label : LeftToRight Parse.label := by
  refine bind peekKind (fun kind? => ?_) fun kind? => ?_
  · split
    · exact wrap skip fun _ => _
    · exact pure none
  · split <;> exact nofun

/-- The type of a field. -/
theorem fieldType : LeftToRight Parse.fieldType := by
  refine bind peekKind (fun kind? => ite ?_ (expect _)) fun kind? =>
    not_asksConstant_ite nofun nofun
  refine bind (keyword _) (fun _ => bind (mark _) (fun _ => ?_) fun _ => nofun) fun _ => nofun
  refine bind (expect _) (fun _ => bind (mark _) (fun _ => ?_) fun _ => nofun) fun _ => nofun
  exact bind (expect _) (fun _ => wrap (mark _) fun _ => _) fun _ => nofun

end LeftToRight

/-- A field or a group after its label, read without looking ahead: what makes a group of it is its
first lexeme, but that counts only after the options. -/
def unlabelledField (body : Parse Members) (label : Option Label) (oneof : Option Text) :
    Parse Members := do
  let first ← peek
  let type ← fieldType
  let fieldName ← name
  mark .equals
  let number ← integer
  let options ← bracketOptions
  if first = some (.identifier (Text.ofString "group")) then
    mark .leftBrace
    let members ← body
    mark .rightBrace
    let field : Field :=
      { name := Text.lower fieldName, number, type := fieldName, isRepeated := repeats label, label,
        oneof, options }
    return { members.declared fieldName with fields := [field] }
  else
    mark .semicolon
    let field : Field :=
      { name := fieldName, number, type, isRepeated := repeats label, label, oneof, options }
    return { fields := [field] }

/-- A name that no equals sign follows leaves no choice for what comes after. -/
theorem name_equals_congr {tokens : List Token} {next further : Text → Parse α}
    (h : ∀ first second rest, tokens = first :: second :: rest →
      second.lexeme ≠ .punctuation .equals) :
    (name >>= fun found => mark .equals >>= fun _ => next found) tokens =
      (name >>= fun found => mark .equals >>= fun _ => further found) tokens := by
  cases hname : name tokens with
  | error fault => rw [bind_of_error hname, bind_of_error hname]
  | ok found =>
      obtain ⟨value, rest⟩ := found
      rw [bind_of_ok hname, bind_of_ok hname]
      obtain ⟨token, rfl, -⟩ := name_eq_ok hname
      cases hmark : mark .equals rest with
      | error fault => rw [bind_of_error hmark, bind_of_error hmark]
      | ok found =>
          obtain ⟨⟨⟩, following⟩ := found
          obtain ⟨second, rfl, hsecond⟩ := mark_eq_ok hmark
          exact absurd hsecond (h token second following rfl)

/-- A field is told from a group after its options as well as before its name. -/
theorem unlabelledField_eq (body : Parse Members) (label : Option Label) (oneof : Option Text)
    (tokens : List Token) :
    (if startsGroup tokens then group body label oneof else plainField label oneof) tokens =
      unlabelledField body label oneof tokens := by
  cases tokens with
  | nil => rfl
  | cons first rest =>
      have hpeek : peek (first :: rest) = .ok (some first.lexeme, first :: rest) := rfl
      unfold unlabelledField
      rw [bind_of_ok hpeek]
      by_cases hgroup : first.lexeme = .identifier (Text.ofString "group")
      · have hkind : first.lexeme.kind = .identifier := by rw [hgroup]; rfl
        have hexpect : expect .identifier (first :: rest) = .ok (first.lexeme.value, rest) :=
          if_pos hkind
        have htype : fieldType (first :: rest) = .ok (first.lexeme.value, rest) := by
          have hpeekKind : peekKind (first :: rest) = .ok (some first.lexeme.kind, first :: rest) :=
            rfl
          refine (bind_of_ok hpeekKind).trans ?_
          rw [if_neg (by simp [hkind])]
          exact hexpect
        simp only [hgroup, if_true]
        rw [bind_of_ok htype]
        split
        next => exact bind_of_ok hexpect
        next hstarts =>
          -- The rules differ only after an equals sign, and none follows the name.
          refine (bind_of_ok htype).trans (name_equals_congr fun second third following hrest => ?_)
          rintro hequals
          exact hstarts (by simp [startsGroup, hrest, hgroup, hequals])
      · have hplain : ¬ startsGroup (first :: rest) = true := by
          rcases rest with _ | ⟨second, _ | ⟨third, rest⟩⟩ <;> simp [startsGroup, hgroup]
        have hfirst : ¬ some first.lexeme = some (.identifier (Text.ofString "group")) :=
          fun h => hgroup (Option.some.inj h)
        rw [if_neg hplain]
        simp only [hfirst, if_false]
        rfl

/-- A field is read without looking ahead. -/
theorem field_eq (body : Parse Members) (oneof : Option Text) :
    field body oneof = label >>= fun label => unlabelledField body label oneof := by
  refine congrArg (label >>= ·) (funext fun label => funext fun tokens => ?_)
  exact unlabelledField_eq body label oneof tokens

namespace LeftToRight

variable {body : Parse Members}

/-- A field or a group after its label. -/
theorem unlabelledField (hbody : LeftToRight body) (label : Option Label) (oneof : Option Text) :
    LeftToRight (Parse.unlabelledField body label oneof) := by
  refine bind peek (fun first => bind fieldType (fun type => ?_) fun _ => nofun) fun _ => nofun
  refine bind name (fun fieldName => bind (mark _) (fun _ => ?_) fun _ => nofun) fun _ => nofun
  refine bind integer (fun number => ?_) fun _ => ?_
  · refine bind bracketOptions (fun options => ite (mark_bind ?_) (wrap (mark _) fun _ => _))
      fun _ => not_asksConstant_ite nofun nofun
    exact bind hbody (fun _ => wrap (mark _) fun _ => _) fun _ => nofun
  · exact not_asksConstant_bind bracketOptions nofun fun _ => not_asksConstant_ite nofun nofun

/-- A field or a group. -/
theorem field (hbody : LeftToRight body) (oneof : Option Text) :
    LeftToRight (Parse.field body oneof) := by
  rw [field_eq]
  exact bind label (fun label => unlabelledField hbody label oneof) fun _ => nofun

/-- A group after its label. -/
theorem group (hbody : LeftToRight body) (label : Option Label) (oneof : Option Text) :
    LeftToRight (Parse.group body label oneof) := by
  refine bind (expect _) (fun _ => bind name (fun type => ?_) fun _ => nofun) fun _ => nofun
  refine bind (mark _) (fun _ => bind integer (fun number => ?_) fun _ => nofun) fun _ => nofun
  refine bind bracketOptions (fun options => mark_bind ?_) fun _ => nofun
  exact bind hbody (fun members => wrap (mark _) fun _ => _) fun _ => nofun

/-- A lone semicolon, or an item. -/
theorem orSemicolon {item : Parse Members} (hitem : LeftToRight item)
    (hasks : ¬ AsksConstant item) : LeftToRight (Parse.orSemicolon item) :=
  bind peekKind (fun _ => ite (wrap skip fun _ => ({} : Members)) hitem) fun _ =>
    not_asksConstant_ite nofun hasks

/-- A statement that is a field takes a token. -/
theorem takes_orSemicolon_field (hbody : LeftToRight body) (oneof : Option Text) :
    Takes (Parse.orSemicolon (Parse.field body oneof)) :=
  (orSemicolon (field hbody oneof) nofun).takes fun lexeme value => by
    cases lexeme with
    | keyword word => cases word <;> exact nofun
    | punctuation mark => cases mark <;> exact nofun
    | identifier | number | string => exact nofun

/-- An entry of a oneof. -/
theorem oneofEntry (hbody : LeftToRight body) (oneof : Text) :
    LeftToRight (Parse.oneofEntry body oneof) :=
  bind peekKind (fun _ => ite (wrap optionStatement fun _ => ({} : Members))
    (orSemicolon (field hbody (some oneof)) nofun)) fun _ => not_asksConstant_ite nofun nofun

/-- An entry of a oneof takes a token. -/
theorem takes_oneofEntry (hbody : LeftToRight body) (oneof : Text) :
    Takes (Parse.oneofEntry body oneof) :=
  (oneofEntry hbody oneof).takes fun lexeme value => by
    cases lexeme with
    | keyword word => cases word <;> exact nofun
    | punctuation mark => cases mark <;> exact nofun
    | identifier | number | string => exact nofun

/-- A oneof block. -/
theorem oneof (hbody : LeftToRight body) : LeftToRight (Parse.oneof body) := by
  refine bind (keyword _) (fun _ => bind name (fun oneofName => ?_) fun _ => nofun) fun _ => nofun
  exact wrap (braced (oneofEntry hbody oneofName) nofun (takes_oneofEntry hbody oneofName)) _

/-- An extend block. -/
theorem extension (hbody : LeftToRight body) : LeftToRight (Parse.extension body) := by
  refine bind (keyword _) (fun _ => bind (expect _) (fun extendee => ?_) fun _ => nofun)
    fun _ => nofun
  exact wrap (braced (orSemicolon (field hbody none) nofun) nofun
    (takes_orSemicolon_field hbody none)) fun parts => _

/-- A message. -/
theorem message (hbody : LeftToRight body) : LeftToRight (Parse.message body) := by
  refine bind (keyword _) (fun _ => bind name (fun messageName => ?_) fun _ => nofun) fun _ => nofun
  exact mark_bind (bind hbody (fun members => wrap (mark _) fun _ => _) fun _ => nofun)

/-- A statement of a message body. -/
theorem bodyStatement (hbody : LeftToRight body) : LeftToRight (Parse.bodyStatement body) := by
  refine bind peekKind (fun kind? => ?_) fun kind? => ?_
  · split
    · exact message hbody
    · exact wrap enumType fun enum => _
    · exact wrap optionStatement fun setting => _
    · exact oneof hbody
    · exact extension hbody
    · exact wrap skipStatement fun _ => _
    · exact wrap skipStatement fun _ => _
    · exact orSemicolon (field hbody none) nofun
  · split <;> exact nofun

/-- A statement of a message body takes a token. -/
theorem takes_bodyStatement (hbody : LeftToRight body) : Takes (Parse.bodyStatement body) :=
  (bodyStatement hbody).takes fun lexeme value => by
    cases lexeme with
    | keyword word => cases word <;> exact nofun
    | punctuation mark => cases mark <;> exact nofun
    | identifier | number | string => exact nofun

end LeftToRight

/-! ### Bodies at different depths -/

namespace Advances

/-- A token of a kind is taken. -/
theorem expect (kind : TokenKind) : Advances (Parse.expect kind) := by
  intro tokens value rest h
  obtain ⟨token, rfl, -⟩ := expect_eq_ok h
  exact Nat.lt_succ_self _

/-- A keyword is taken. -/
theorem keyword (word : Keyword) : Advances (Parse.keyword word) := by
  intro tokens value rest h
  obtain ⟨⟨_, following⟩, hexpect, h⟩ := bind_eq_ok_iff.mp h
  obtain ⟨-, rfl⟩ := Prod.mk.inj (Except.ok.inj h)
  exact expect _ tokens _ following hexpect

/-- A mark is taken. -/
theorem mark (mark : Punctuation) : Advances (Parse.mark mark) := by
  intro tokens value rest h
  obtain ⟨token, rfl, -⟩ := mark_eq_ok h
  exact Nat.lt_succ_self _

/-- A name is taken. -/
theorem name : Advances Parse.name := by
  intro tokens value rest h
  obtain ⟨token, rfl, -⟩ := name_eq_ok h
  exact Nat.lt_succ_self _

end Advances

namespace Agree

variable {length : Nat} {body other : Parse Members}

/-- Fields agree where the bodies of groups do, which come after the word for a group. -/
theorem field (hbody : Agree (length - 1) body other) (oneof : Option Text) :
    Agree length (Parse.field body oneof) (Parse.field other oneof) := by
  refine bind (refl _ _) .label fun label => input fun tokens => ite ?_ (refl _ _)
  refine bind_takes (Advances.expect _).takes fun _ => bind (refl _ _) .name fun _ => ?_
  refine bind (refl _ _) (.mark _) fun _ => bind (refl _ _) .integer fun _ => ?_
  refine bind (refl _ _) .bracketOptions fun _ => bind (refl _ _) (.mark _) fun _ => ?_
  exact hbody.andThen

/-- Items that may be a lone semicolon agree where the items do. -/
theorem orSemicolon {item otherItem : Parse Members} (hitem : Agree length item otherItem) :
    Agree length (Parse.orSemicolon item) (Parse.orSemicolon otherItem) :=
  bind (refl _ _) .peekKind fun _ => ite (refl _ _) hitem

/-- Messages agree where their bodies do. -/
theorem message (hbody : Agree (length - 1) body other) :
    Agree length (Parse.message body) (Parse.message other) := by
  refine bind_takes (Advances.keyword _).takes fun _ => bind (refl _ _) .name fun _ => ?_
  exact bind (refl _ _) (.mark _) fun _ => hbody.andThen

/-- Oneof blocks agree where the bodies of their groups do. -/
theorem oneof (hleft : LeftToRight body) (hbody : Agree (length - 1) body other) :
    Agree length (Parse.oneof body) (Parse.oneof other) := by
  refine bind_takes (Advances.keyword _).takes fun _ => bind (refl _ _) .name fun oneofName => ?_
  have hentry : Agree (length - 1) (oneofEntry body oneofName) (oneofEntry other oneofName) :=
    bind (refl _ _) .peekKind fun _ => ite (refl _ _)
      (orSemicolon (field (hbody.mono (Nat.sub_le _ _)) _))
  exact (braced (fun _ => hentry) (LeftToRight.takes_oneofEntry hleft oneofName)).andThen

/-- Extend blocks agree where the bodies of their groups do. -/
theorem extension (hleft : LeftToRight body) (hbody : Agree (length - 1) body other) :
    Agree length (Parse.extension body) (Parse.extension other) := by
  refine bind_takes (Advances.keyword _).takes fun _ =>
    bind (refl _ _) (.expect _) fun extendee => ?_
  have hitem : Agree (length - 1) (Parse.orSemicolon (Parse.field body none))
      (Parse.orSemicolon (Parse.field other none)) :=
    orSemicolon (field (hbody.mono (Nat.sub_le _ _)) none)
  exact (braced (fun _ => hitem) (LeftToRight.takes_orSemicolon_field hleft none)).andThen

/-- Statements of bodies agree where the bodies in them do, which come after a first token. -/
theorem bodyStatement (hleft : LeftToRight body) (hbody : Agree (length - 1) body other) :
    Agree length (Parse.bodyStatement body) (Parse.bodyStatement other) := by
  refine bind (refl _ _) .peekKind fun kind? => ?_
  split
  · exact message hbody
  · exact refl _ _
  · exact refl _ _
  · exact oneof hleft hbody
  · exact extension hleft hbody
  · exact refl _ _
  · exact refl _ _
  · exact orSemicolon (field hbody none)

end Agree

/-- A body is parsed statement by statement, as many as there are tokens. -/
theorem messageBodyTo_succ (depth : Nat) :
    messageBodyTo (depth + 1) = items (bodyStatement (messageBodyTo depth)) >>= fun parts =>
      Pure.pure (Members.concat parts) :=
  rfl

/-- Bodies of any depth read from left to right. -/
theorem LeftToRight.messageBodyTo (depth : Nat) : LeftToRight (Parse.messageBodyTo depth) := by
  induction depth with
  | zero => exact pure ({} : Members)
  | succ depth ih =>
      rw [messageBodyTo_succ]
      exact wrap (items (bodyStatement ih) nofun (takes_bodyStatement ih)) _

/-- Every body at the end of the input is empty. -/
theorem messageBodyTo_nil (depth : Nat) : messageBodyTo depth [] = .ok ({}, []) := by
  cases depth <;> rfl

/-- Bodies agree on inputs that are shorter than both depths. -/
theorem Agree.messageBodyTo {length depth otherDepth : Nat} (hdepth : length < depth)
    (hother : length < otherDepth) :
    Agree length (Parse.messageBodyTo depth) (Parse.messageBodyTo otherDepth) := by
  induction length generalizing depth otherDepth with
  | zero =>
      intro tokens htokens
      obtain rfl := List.length_eq_zero_iff.mp (Nat.le_zero.mp htokens)
      rw [messageBodyTo_nil, messageBodyTo_nil]
  | succ length ih =>
      obtain ⟨depth, rfl⟩ := Nat.exists_eq_succ_of_ne_zero (Nat.ne_of_gt (Nat.zero_lt_of_lt hdepth))
      obtain ⟨otherDepth, rfl⟩ :=
        Nat.exists_eq_succ_of_ne_zero (Nat.ne_of_gt (Nat.zero_lt_of_lt hother))
      -- A nested body comes after a token, so it is shorter and may be one level less deep.
      have hbody := ih (Nat.lt_of_succ_lt_succ hdepth) (Nat.lt_of_succ_lt_succ hother)
      have hleft := LeftToRight.messageBodyTo depth
      have hstatement : Agree (length + 1) (Parse.bodyStatement (Parse.messageBodyTo depth))
          (Parse.bodyStatement (Parse.messageBodyTo otherDepth)) := bodyStatement hleft hbody
      rw [messageBodyTo_succ, messageBodyTo_succ]
      exact (items (fun _ => hstatement) (LeftToRight.takes_bodyStatement hleft)).andThen

/-- A depth that is greater than the number of tokens is no limit. -/
theorem Agree.messageBody {length depth : Nat} (hdepth : length < depth) :
    Agree length Parse.messageBody (Parse.messageBodyTo depth) := fun tokens htokens =>
  Agree.messageBodyTo (Nat.lt_succ_self _) (Nat.lt_of_le_of_lt htokens hdepth) tokens
    (Nat.le_refl _)

/-- Statements are parsed up to the end of the input. -/
theorem statementsWithin_rounds (statement : Parse (Option Statement)) :
    Rounds (statementsWithin statement) peek Option.isNone statement
      (fun first others => first.toList ++ others) [] where
  zero := rfl
  succ fuel := by
    refine funext fun tokens => ?_
    cases tokens <;> rfl
  ends := ⟨none, rfl, rfl⟩

namespace LeftToRight

/-- The body of a message. -/
theorem messageBody : LeftToRight Parse.messageBody :=
  of_agree fun length => ⟨_, messageBodyTo (length + 1), .messageBody (Nat.lt_succ_self length)⟩

/-! ### Files -/

/-- The word that qualifies an import. -/
theorem importModifier : LeftToRight Parse.importModifier := by
  refine bind peek (fun lexeme? => ?_) fun lexeme? => ?_
  · split
    · exact ite skip (pure ())
    · exact pure ()
  · split
    · exact not_asksConstant_ite nofun nofun
    · exact nofun

/-- A statement at the top level. -/
theorem statement : LeftToRight Parse.statement := by
  have hdialect : LeftToRight dialectStatement :=
    bind (keyword _) (fun _ => bind (mark _) (fun _ => bind (expect _) (fun _ =>
      wrap (mark _) fun _ => _) fun _ => nofun) fun _ => nofun) fun _ => nofun
  have hpackage : LeftToRight packageStatement :=
    bind (keyword _) (fun _ => bind (expect _) (fun _ => wrap (mark _) fun _ => _)
      fun _ => nofun) fun _ => nofun
  have himport : LeftToRight importStatement :=
    bind (keyword _) (fun _ => bind importModifier (fun _ => bind (expect _) (fun _ =>
      wrap (mark _) fun _ => _) fun _ => nofun) fun _ => nofun) fun _ => nofun
  refine bind peekKind (fun kind? => ?_) fun kind? => ?_
  · split
    · exact wrap hdialect some
    · exact wrap hpackage some
    · exact wrap himport some
    · exact wrap optionStatement fun setting => _
    · exact wrap (message messageBody) fun members => _
    · exact wrap enumType fun enum => _
    · exact wrap service fun service => _
    · exact wrap (extension messageBody) fun members => _
    · exact wrap skip fun _ => none
    · exact refuse nofun
  · split <;> exact nofun

/-- A statement takes a token. -/
theorem takes_statement : Takes Parse.statement :=
  statement.takes fun lexeme value => by
    cases lexeme with
    | keyword word => cases word <;> exact nofun
    | punctuation mark => cases mark <;> exact nofun
    | identifier | number | string => exact nofun

/-- All statements of a file. -/
theorem statements : LeftToRight Parse.statements :=
  (statementsWithin_rounds _).leftToRight_loop peek statement nofun takes_statement

end LeftToRight

/-- The statements at tokens are the first one and those that come after it. -/
theorem statements_cons (token : Token) (tokens : List Token) :
    statements (token :: tokens) =
      (statement >>= fun first => statements >>= fun others =>
        Pure.pure (first.toList ++ others)) (token :: tokens) :=
  congrFun ((statementsWithin_rounds _).loop_eq .peek LeftToRight.takes_statement) (token :: tokens)

/-- Statements are parsed one after the other, up to the end of the input. -/
theorem statements_induction {motive : List Token → List Statement → Prop} (nil : motive [] [])
    (cons : ∀ tokens first rest others, statement tokens = .ok (first, rest) → motive rest others →
      motive tokens (first.toList ++ others))
    {tokens rest : List Token} {found : List Statement}
    (h : statements tokens = .ok (found, rest)) : rest = [] ∧ motive tokens found := by
  induction hlength : tokens.length using Nat.strongRecOn generalizing tokens found with
  | ind length ih =>
      cases tokens with
      | nil =>
          obtain ⟨rfl, rfl⟩ := Prod.mk.inj (Except.ok.inj h)
          exact ⟨rfl, nil⟩
      | cons token tokens =>
          rw [statements_cons] at h
          obtain ⟨⟨first, middle⟩, hfirst, h⟩ := bind_eq_ok_iff.mp h
          obtain ⟨⟨others, last⟩, hothers, h⟩ := bind_eq_ok_iff.mp h
          obtain ⟨rfl, rfl⟩ := Prod.mk.inj (Except.ok.inj h)
          have hshorter : middle.length < length := by
            have hle := LeftToRight.takes_statement _ _ _ hfirst
            rw [List.length_cons] at hlength hle
            omega
          obtain ⟨hend, hmotive⟩ := ih middle.length hshorter hothers rfl
          exact ⟨hend, cons _ first middle others hfirst hmotive⟩

/-- The statements of a file leave nothing of their input. -/
theorem statements_rest {tokens rest : List Token} {found : List Statement}
    (h : statements tokens = .ok (found, rest)) : rest = [] :=
  (statements_induction (motive := fun _ _ => True) trivial (fun _ _ _ _ _ _ => trivial) h).1

end ProtoSchema.Parse
