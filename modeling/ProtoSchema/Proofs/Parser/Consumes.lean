import ProtoSchema.Proofs.Parser.LeftToRight
import ProtoSchema.Proofs.Token.Word

/-!
# What a parse leaves

A parse from left to right takes tokens from the front of its input and leaves the rest as it is
(`LeftToRight.consumes`), and so does a look at the whole input, which is no such parse. What is
taken as a token of a kind, a mark or a name is the first token.
-/

namespace ProtoSchema

namespace Parse

variable {α : Type}

/-- A token that is taken is the first one, and it is of the kind that was asked for. -/
theorem expect_eq_ok {kind : TokenKind} {tokens rest : List Token} {value : Text}
    (h : expect kind tokens = .ok (value, rest)) :
    ∃ token, tokens = token :: rest ∧ token.lexeme.kind = kind ∧ token.lexeme.value = value := by
  cases tokens with
  | nil => exact absurd h (by simp [expect])
  | cons token following =>
      rw [expect] at h
      split at h
      next hkind =>
        obtain ⟨hvalue, rfl⟩ := Prod.mk.inj (Except.ok.inj h)
        exact ⟨token, rfl, hkind, hvalue⟩
      next => exact absurd h (by simp)

/-- A mark that is taken is the first token. -/
theorem mark_eq_ok {mark : Punctuation} {tokens rest : List Token} {value : Unit}
    (h : Parse.mark mark tokens = .ok (value, rest)) :
    ∃ token, tokens = token :: rest ∧ token.lexeme = .punctuation mark := by
  obtain ⟨⟨_, following⟩, hexpect, h⟩ := bind_eq_ok_iff.mp h
  obtain ⟨-, rfl⟩ := Prod.mk.inj (Except.ok.inj h)
  obtain ⟨token, rfl, hkind, -⟩ := expect_eq_ok hexpect
  exact ⟨token, rfl, Lexeme.eq_punctuation_of_kind hkind⟩

/-- A name that is taken is the first token. -/
theorem name_eq_ok {tokens rest : List Token} {value : Text}
    (h : name tokens = .ok (value, rest)) :
    ∃ token, tokens = token :: rest ∧ token.lexeme.isName ∧ token.lexeme.value = value := by
  cases tokens with
  | nil => exact absurd h (by simp [name])
  | cons token following =>
      rw [name] at h
      split at h
      next hname =>
        obtain ⟨hvalue, rfl⟩ := Prod.mk.inj (Except.ok.inj h)
        exact ⟨token, rfl, hname, hvalue⟩
      next => exact absurd h (by simp)

/-- The parse leaves the end of its input. -/
def Consumes (parse : Parse α) : Prop :=
  ∀ (tokens : List Token) (value : α) (rest : List Token),
    parse tokens = .ok (value, rest) → rest <:+ tokens

/-- A parse from left to right leaves the end of its input. -/
theorem LeftToRight.consumes {parse : Parse α} (h : LeftToRight parse) : Consumes parse :=
  fun _ _ _ hparse => h.suffix hparse

/-- A look at the whole input leaves everything. -/
theorem Consumes.input : Consumes (get : Parse (List Token)) := by
  intro tokens value rest h
  obtain ⟨-, rfl⟩ := Prod.mk.inj (Except.ok.inj h)
  exact List.suffix_rfl

end Parse

end ProtoSchema
