import ProtoSchema.Files.Encoding
import ProtoSchema.Proofs.Files.Path

/-!
# Which texts are paths

A text is a path exactly if it has no null character and no surrogate but those that stand for bytes
(`Path.error?_eq_none_iff`). This is said of its code points one by one, so it does not matter
whether a path is asked for as it is or as it is shown (`Path.error?_display_eq_none_iff`).
-/

namespace ProtoSchema

/-- A text has no fault exactly if all its surrogates are allowed. -/
theorem Utf8.encodeFault?_eq_none_iff {allowed : CodePoint → Bool} {text : Text} :
    encodeFault? allowed text = none ↔ ∀ c ∈ text, c.isSurrogate → allowed c := by
  have hrest (plain : CodePoint → Bool) :
      text.drop (text.takeWhile plain).length = text.dropWhile plain := by
    have hsplit : text.takeWhile plain ++ text.dropWhile plain = text :=
      List.takeWhile_append_dropWhile
    rw [← congrArg (List.drop (text.takeWhile plain).length) hsplit, List.drop_left]
  have hfault : encodeFault? allowed text = none ↔
      text.dropWhile (fun c => !c.isSurrogate || allowed c) = [] := by
    rw [← hrest, encodeFault?]
    split
    next hdrop => simp [hdrop]
    next hdrop => simp [hdrop]
  rw [hfault, List.dropWhile_eq_nil_iff]
  refine forall₂_congr fun c _ => ?_
  cases c.isSurrogate <;> simp

namespace Path

/-- The code points may all stand in a path: none is the null character, and a surrogate stands for
a byte. -/
def IsEncodable (path : Text) : Prop :=
  ∀ c ∈ path, c.val ≠ 0 ∧ (c.isSurrogate → standsForByte c)

instance (path : Text) : Decidable (IsEncodable path) :=
  inferInstanceAs (Decidable (∀ c ∈ path, _))

/-- Nothing is wrong with a text as a path exactly if its code points may stand in one. -/
theorem error?_eq_none_iff {path : Text} : error? path = none ↔ IsEncodable path := by
  have hnull : (if path.any fun c => c.val = 0 then some PathError.nullCharacter else none) = none ↔
      ∀ c ∈ path, c.val ≠ 0 := by
    simp
  rw [error?, IsEncodable, forall₂_and, ← hnull, ← Utf8.encodeFault?_eq_none_iff]
  cases Utf8.encodeFault? standsForByte path <;> simp

/-- A path as it is shown is none exactly if the path is none. -/
theorem error?_display_eq_none_iff {path : Text} :
    error? (display path) = none ↔ IsEncodable path := by
  rw [error?_eq_none_iff]
  exact forall_mem_display_iff ⟨by decide, by decide⟩ ⟨by decide, by decide⟩

end Path

end ProtoSchema
