import ProtoSchema.Parser.Service
import ProtoSchema.Proofs.Parser.Option

/-!
# Reading services

Every service that can be written is read back (`Reads.service`). The word for streams is taken as
one only in front of an identifier, which is where it is written.
-/

namespace ProtoSchema.Parse

variable {following : List Lexeme}

namespace Reads

/-- One side of a procedure is read back. -/
theorem methodSide (streams : Bool) (type : Text) (following : List Lexeme) :
    Reads Parse.methodSide (Method.sideLexemes streams type) (streams, type) following := by
  refine Reads.cons (Reads.mark .leftParen _) ?_
  have hstreaming : Reads Parse.streaming (if streams then [.keyword .stream] else []) streams
      ([.identifier type, .punctuation .rightParen] ++ following) := by
    refine Reads.input fun tokens htokens => ?_
    -- The look ahead needs the first two tokens, so the input is opened as far as that.
    match tokens with
    | [] => cases streams <;> exact absurd htokens.symm (List.cons_ne_nil _ _)
    | [first] => cases streams <;> simp at htokens
    | first :: second :: rest =>
        cases streams with
        | false =>
            have hfirst : first.lexeme = .identifier type := (List.cons.inj htokens).1
            simp only [hfirst]
            exact Reads.pure false _
        | true =>
            have hfirst : first.lexeme = .keyword .stream := (List.cons.inj htokens).1
            have hsecond : second.lexeme = .identifier type :=
              (List.cons.inj (List.cons.inj htokens).2).1
            simp only [hfirst, hsecond]
            exact Reads.cons (Reads.skip _ _) (Reads.pure true _)
  refine Reads.bind hstreaming ?_
  refine Reads.cons (Reads.expect rfl _) ?_
  exact Reads.cons (Reads.mark .rightParen _) (Reads.pure (streams, type) _)

/-- The options of a procedure are read back. -/
theorem methodOptions {options : List OptionSetting} (h : ∀ setting ∈ options, setting.Printable)
    (following : List Lexeme) :
    Reads Parse.methodOptions (Method.optionLexemes options) options following := by
  have hentries : ReadsEach methodEntry (options.flatMap OptionSetting.statement)
      (options.map fun setting => [setting]) :=
    ReadsEach.map fun setting hmem => ⟨Lexeme.noConfusion, fun following =>
      Reads.peekKind (Reads.wrap (optionStatement (h setting hmem) following) fun setting =>
        [setting])⟩
  cases options with
  | nil => exact Reads.peekKind (Reads.cons (Reads.mark .semicolon _) (Reads.pure [] _))
  | cons first rest =>
      refine Reads.peekKind (Reads.finish (hentries.braced following) ?_)
      simp [← List.flatMap_def]

/-- A procedure is read back. -/
theorem method {method : Method} (h : method.Printable) (following : List Lexeme) :
    Reads Parse.method method.lexemes method following := by
  refine Reads.cons (Reads.keyword .rpc _) ?_
  refine Reads.cons (Reads.name method.name _) ?_
  refine Reads.bind (methodSide method.clientStreaming method.input _) ?_
  refine Reads.cons (Reads.keyword .returns _) ?_
  refine Reads.bind (methodSide method.serverStreaming method.output _) ?_
  exact Reads.finish (methodOptions h.options following) rfl

/-- A service is read back. -/
theorem service {service : Service} (h : service.Printable) (following : List Lexeme) :
    Reads Parse.service service.lexemes service following := by
  have hoptions : ReadsEach serviceEntry (service.options.flatMap OptionSetting.statement)
      (service.options.map fun setting => ([], [setting])) :=
    ReadsEach.map fun setting hmem => ⟨Lexeme.noConfusion, fun following =>
      Reads.peekKind (Reads.wrap (optionStatement (h.options setting hmem) following)
        fun setting => ([], [setting]))⟩
  have hmethods : ReadsEach serviceEntry (service.methods.flatMap Method.lexemes)
      (service.methods.map fun method => ([method], [])) :=
    ReadsEach.map fun declared hmem => ⟨Lexeme.noConfusion, fun following =>
      Reads.peekKind (Reads.wrap (method (h.methods declared hmem) following)
        fun method => ([method], []))⟩
  refine Reads.cons (Reads.keyword .service _) ?_
  refine Reads.cons (Reads.name service.name _) ?_
  refine Reads.finish ((hoptions.append hmethods).braced following) ?_
  simp [List.flatMap_append, List.flatMap_map]

end Reads

end ProtoSchema.Parse
