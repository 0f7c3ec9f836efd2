import ProtoSchema.Proofs.Parser.LeftToRight

/-!
# Loops and their fuel

A loop of the grammar runs on fuel, as much as there are tokens. Every round takes a token
(`Takes`), so more fuel changes nothing, and the loop reads from left to right as its rounds do
(`LeftToRight.braced`). Two parses `Agree` up to a length if they give the same on inputs that are
no longer. This is also how bodies of messages at different depths are compared.
-/

namespace ProtoSchema.Parse

variable {α β γ : Type} {parse other : Parse α} {next further : α → Parse β}

/-- The parse leaves fewer tokens than there are, if there are any. -/
def Takes (parse : Parse α) : Prop :=
  ∀ (tokens : List Token) (value : α) (rest : List Token),
    parse tokens = .ok (value, rest) → rest.length ≤ tokens.length - 1

/-- A parse from left to right takes a token if it never leaves a lone one. -/
theorem LeftToRight.takes (hparse : LeftToRight parse)
    (hsingle : ∀ lexeme value,
      parse [⟨lexeme, Position.start⟩] ≠ .ok (value, [⟨lexeme, Position.start⟩])) :
    Takes parse := by
  intro tokens value rest h
  obtain ⟨taken, rfl, htaken⟩ := hparse.ok h
  cases taken with
  | cons token taken =>
      rw [List.length_append, List.length_cons]
      omega
  | nil =>
      cases rest with
      | nil => exact Nat.le_refl 0
      | cons token rest =>
          exact absurd (htaken [] [⟨token.lexeme, Position.start⟩] (SameLexemes.refl _) rfl)
            (hsingle token.lexeme value)

/-- The parse leaves fewer tokens than there are. So it does not accept the end of the input. -/
def Advances (parse : Parse α) : Prop :=
  ∀ (tokens : List Token) (value : α) (rest : List Token),
    parse tokens = .ok (value, rest) → rest.length < tokens.length

/-- A parse that leaves fewer tokens takes one. -/
theorem Advances.takes (h : Advances parse) : Takes parse :=
  fun tokens value rest hparse => Nat.le_sub_one_of_lt (h tokens value rest hparse)

/-- A value that is wrapped up takes no token back. -/
theorem Takes.wrap (htakes : Takes parse) (f : α → β) :
    Takes (parse >>= fun value => Pure.pure (f value)) := by
  intro tokens result rest h
  obtain ⟨⟨value, following⟩, hvalue, h⟩ := bind_eq_ok_iff.mp h
  obtain ⟨-, rfl⟩ := Prod.mk.inj (Except.ok.inj h)
  exact htakes tokens value following hvalue

/-- The parses give the same on inputs of at most this many tokens. -/
def Agree (length : Nat) (parse other : Parse α) : Prop :=
  ∀ tokens : List Token, tokens.length ≤ length → parse tokens = other tokens

namespace Agree

variable {length : Nat}

/-- A parse agrees with itself. -/
theorem refl (length : Nat) (parse : Parse α) : Agree length parse parse :=
  fun _ _ => rfl

/-- Parses that agree on longer inputs agree on shorter ones. -/
theorem mono {shorter : Nat} (h : Agree length parse other) (hle : shorter ≤ length) :
    Agree shorter parse other :=
  fun tokens htokens => h tokens (Nat.le_trans htokens hle)

/-- What agrees with the same parse agrees. -/
theorem trans {third : Parse α} (h : Agree length parse other) (hother : Agree length other third) :
    Agree length parse third :=
  fun tokens htokens => (h tokens htokens).trans (hother tokens htokens)

/-- Chains agree if their parses do. -/
theorem bind (hparse : Agree length parse other) (hleft : LeftToRight parse)
    (hnext : ∀ value, Agree length (next value) (further value)) :
    Agree length (parse >>= next) (other >>= further) := by
  intro tokens htokens
  have hsame := hparse tokens htokens
  cases h : parse tokens with
  | error fault => rw [bind_of_error h, bind_of_error (hsame ▸ h)]
  | ok found =>
      obtain ⟨value, rest⟩ := found
      rw [bind_of_ok h, bind_of_ok (hsame ▸ h)]
      exact hnext value rest (Nat.le_trans (hleft.suffix h).length_le htokens)

/-- After a parse that takes a token, it is enough to agree on shorter inputs. -/
theorem bind_takes (htakes : Takes parse)
    (hnext : ∀ value, Agree (length - 1) (next value) (further value)) :
    Agree length (parse >>= next) (parse >>= further) := by
  intro tokens htokens
  cases h : parse tokens with
  | error fault => rw [bind_of_error h, bind_of_error h]
  | ok found =>
      obtain ⟨value, rest⟩ := found
      rw [bind_of_ok h, bind_of_ok h]
      have hfewer := Nat.sub_le_sub_right htokens 1
      exact hnext value rest (Nat.le_trans (htakes tokens value rest h) hfewer)

/-- After a parse that leaves fewer tokens, it is enough to agree on inputs that are shorter. -/
theorem bind_advances (hadvances : Advances parse)
    (hnext : ∀ shorter < length, ∀ value, Agree shorter (next value) (further value)) :
    Agree length (parse >>= next) (parse >>= further) := by
  intro tokens htokens
  cases h : parse tokens with
  | error fault => rw [bind_of_error h, bind_of_error h]
  | ok found =>
      obtain ⟨value, rest⟩ := found
      rw [bind_of_ok h, bind_of_ok h]
      have hshorter := Nat.lt_of_lt_of_le (hadvances tokens value rest h) htokens
      exact hnext rest.length hshorter value rest (Nat.le_refl _)

/-- Chains that go on alike agree if they start alike. -/
theorem andThen (hparse : Agree length parse other) :
    Agree length (parse >>= next) (other >>= next) := by
  intro tokens htokens
  show (parse tokens).bind _ = (other tokens).bind _
  rw [hparse tokens htokens]

/-- A look at the input changes nothing. -/
theorem input {next further : List Token → Parse β}
    (hnext : ∀ tokens, Agree length (next tokens) (further tokens)) :
    Agree length (get >>= next) (get >>= further) :=
  fun tokens htokens => hnext tokens tokens htokens

/-- Branches agree if both do. -/
theorem ite {condition : Prop} [Decidable condition] {left right : Parse α}
    (hparse : Agree length parse other) (hleft : Agree length left right) :
    Agree length (if condition then parse else left) (if condition then other else right) := by
  split
  · exact hparse
  · exact hleft

/-- Loops whose fuel is the length of their input agree if they do with just enough fuel. -/
theorem loop {run otherRun : Nat → Parse α}
    (h : ∀ fuel ≤ length, Agree fuel (run fuel) (otherRun fuel)) :
    Agree length (get >>= fun tokens => run tokens.length)
      (get >>= fun tokens => otherRun tokens.length) :=
  fun tokens htokens => h tokens.length htokens tokens (Nat.le_refl _)

end Agree

/-- A parse reads from left to right if, on inputs of any length, it agrees with one that does. -/
theorem LeftToRight.of_agree (h : ∀ length, ∃ other, LeftToRight other ∧ Agree length parse other) :
    LeftToRight parse where
  ok {tokens rest value} hparse := by
    obtain ⟨first, hfirst, hagree⟩ := h tokens.length
    obtain ⟨taken, rfl, -⟩ := hfirst.ok ((hagree _ (Nat.le_refl _)).symm.trans hparse)
    refine ⟨taken, rfl, fun like following hlike hfollowing => ?_⟩
    obtain ⟨other, hother, hagree⟩ :=
      h (max (taken ++ rest).length (like ++ following).length)
    obtain ⟨same, htaken, hsame⟩ := hother.ok ((hagree _ (Nat.le_max_left _ _)).symm.trans hparse)
    obtain rfl := List.append_cancel_right htaken
    exact (hagree _ (Nat.le_max_right _ _)).trans (hsame like following hlike hfollowing)
  refused {tokens rest cause} hparse := by
    obtain ⟨first, hfirst, hagree⟩ := h tokens.length
    obtain ⟨taken, rfl, -⟩ := hfirst.refused ((hagree _ (Nat.le_refl _)).symm.trans hparse)
    refine ⟨taken, rfl, fun like following hlike hfollowing => ?_⟩
    obtain ⟨other, hother, hagree⟩ :=
      h (max (taken ++ rest).length (like ++ following).length)
    obtain ⟨same, htaken, hsame⟩ :=
      hother.refused ((hagree _ (Nat.le_max_left _ _)).symm.trans hparse)
    obtain rfl := List.append_cancel_right htaken
    exact (hagree _ (Nat.le_max_right _ _)).trans (hsame like following hlike hfollowing)
  notNumeric {tokens spelling} hparse := by
    obtain ⟨other, hother, hagree⟩ := h tokens.length
    obtain ⟨taken, token, rest, rfl, hlexeme, hvalue, htaken⟩ :=
      hother.notNumeric ((hagree _ (Nat.le_refl _)).symm.trans hparse)
    refine ⟨taken, token, rest, rfl, hlexeme, hvalue, (hagree _ ?_).trans htaken⟩
    rw [List.length_append]
    exact Nat.le_add_right _ _
  asked {tokens rest token spelling} hparse hlexeme hvalue := by
    obtain ⟨other, hother, hagree⟩ := h (tokens ++ token :: rest).length
    have htokens : tokens.length ≤ (tokens ++ token :: rest).length := by
      rw [List.length_append]
      exact Nat.le_add_right _ _
    exact (hagree _ (Nat.le_refl _)).trans
      (hother.asked ((hagree _ htokens).symm.trans hparse) hlexeme hvalue)

/-! ### Loops -/

/-- A loop on fuel. Each round looks at the next token to see whether it is the last one, and if not
it parses an item and adds it to what the later rounds give. The end of the input ends the loop. -/
structure Rounds (run : Nat → Parse β) (ahead : Parse γ) (stops : γ → Bool) (item : Parse α)
    (add : α → β → β) (last : β) : Prop where
  zero : run 0 = Pure.pure last
  succ (fuel : Nat) : run (fuel + 1) = ahead >>= fun seen =>
    if stops seen then Pure.pure last
    else item >>= fun first => run fuel >>= fun others => Pure.pure (add first others)
  ends : ∃ seen, ahead [] = .ok (seen, []) ∧ stops seen

namespace Rounds

variable {run otherRun : Nat → Parse β} {ahead : Parse γ} {stops : γ → Bool}
variable {item otherItem : Parse α} {add : α → β → β} {last : β}

/-- The loop stops at the end of the input. -/
theorem nil (hrun : Rounds run ahead stops item add last) (fuel : Nat) :
    run fuel [] = .ok (last, []) := by
  cases fuel with
  | zero => rw [hrun.zero]; rfl
  | succ fuel =>
      obtain ⟨seen, hseen, hstops⟩ := hrun.ends
      rw [hrun.succ, bind_of_ok hseen, if_pos hstops]
      rfl

/-- No loop asks for a constant at once. -/
theorem not_asksConstant (hrun : Rounds run ahead stops item add last) (fuel : Nat) :
    ¬ AsksConstant (run fuel) :=
  fun h => ok_error_elim (hrun.nil fuel) h

/-- Loops agree if their items do and the fuel is enough for both: every item takes a token. There
are no items at the end of the input. -/
theorem agree (hrun : Rounds run ahead stops item add last)
    (hother : Rounds otherRun ahead stops otherItem add last) (hahead : LeftToRight ahead)
    (htakes : Takes item) {length fuel otherFuel : Nat}
    (hitem : 0 < length → Agree length item otherItem) (hfuel : length ≤ fuel)
    (hotherFuel : length ≤ otherFuel) :
    Agree length (run fuel) (otherRun otherFuel) := by
  induction length generalizing fuel otherFuel with
  | zero =>
      intro tokens htokens
      obtain rfl := List.length_eq_zero_iff.mp (Nat.le_zero.mp htokens)
      rw [hrun.nil, hother.nil]
  | succ length ih =>
      obtain ⟨fuel, rfl⟩ := Nat.exists_eq_succ_of_ne_zero (Nat.ne_of_gt (Nat.zero_lt_of_lt hfuel))
      obtain ⟨otherFuel, rfl⟩ :=
        Nat.exists_eq_succ_of_ne_zero (Nat.ne_of_gt (Nat.zero_lt_of_lt hotherFuel))
      have hitem := hitem (Nat.succ_pos length)
      have hlater := ih (fun _ => hitem.mono (Nat.le_succ length)) (Nat.le_of_succ_le_succ hfuel)
        (Nat.le_of_succ_le_succ hotherFuel)
      rw [hrun.succ, hother.succ]
      refine .bind (.refl _ _) hahead fun seen => .ite (.refl _ _) ?_
      have hspent : Agree (length + 1)
          (item >>= fun first => run fuel >>= fun others => Pure.pure (add first others))
          (item >>= fun first => otherRun otherFuel >>= fun others =>
            Pure.pure (add first others)) :=
        .bind_takes htakes fun _ => hlater.andThen
      exact hspent.trans hitem.andThen

/-- A loop reads from left to right if its items do. -/
theorem leftToRight (hrun : Rounds run ahead stops item add last) (hahead : LeftToRight ahead)
    (hitem : LeftToRight item) (hasks : ¬ AsksConstant item) (fuel : Nat) :
    LeftToRight (run fuel) := by
  induction fuel with
  | zero => rw [hrun.zero]; exact .pure last
  | succ fuel ih =>
      have hlater (first : α) :
          ¬ AsksConstant (run fuel >>= fun others => Pure.pure (add first others)) :=
        LeftToRight.not_asksConstant_bind ih (hrun.not_asksConstant fuel) fun _ => nofun
      rw [hrun.succ]
      refine .bind hahead (fun seen => .ite (.pure last) ?_) fun seen => ?_
      · exact .bind hitem (fun first => .wrap ih (add first)) hlater
      · split
        · exact nofun
        · exact LeftToRight.not_asksConstant_bind hitem hasks hlater

/-- A loop with as much fuel as there are tokens. -/
theorem leftToRight_loop (hrun : Rounds run ahead stops item add last)
    (hahead : LeftToRight ahead) (hitem : LeftToRight item) (hasks : ¬ AsksConstant item)
    (htakes : Takes item) : LeftToRight (get >>= fun tokens => run tokens.length) := by
  refine .of_agree fun length => ⟨run length, hrun.leftToRight hahead hitem hasks length, ?_⟩
  intro tokens htokens
  exact hrun.agree hrun hahead htakes (fun _ => .refl _ _) (Nat.le_refl _) htokens tokens
    (Nat.le_refl _)

/-- A loop with as much fuel as there are tokens never runs out of it: it is one round and then the
loop again. -/
theorem loop_eq (hrun : Rounds run ahead stops item add last) (hahead : LeftToRight ahead)
    (htakes : Takes item) :
    (get >>= fun tokens => run tokens.length) = ahead >>= fun seen =>
      if stops seen then Pure.pure last
      else item >>= fun first => (get >>= fun tokens => run tokens.length) >>= fun others =>
        Pure.pure (add first others) := by
  have henough {length fuel other : Nat} (hfuel : length ≤ fuel) (hother : length ≤ other) :
      Agree length (run fuel) (run other) :=
    hrun.agree hrun hahead htakes (fun _ => .refl _ _) hfuel hother
  refine funext fun tokens => ?_
  show run tokens.length tokens = _
  rw [henough (Nat.le_refl _) (Nat.le_succ _) tokens (Nat.le_refl _), hrun.succ]
  have hround : Agree tokens.length
      (item >>= fun first => run tokens.length >>= fun others => Pure.pure (add first others))
      (item >>= fun first => (get >>= fun tokens => run tokens.length) >>= fun others =>
        Pure.pure (add first others)) :=
    .bind_takes htakes fun _ => Agree.andThen fun rest hrest =>
      henough (Nat.le_trans hrest (Nat.sub_le _ _)) (Nat.le_refl _) rest (Nat.le_refl _)
  exact Agree.bind (.refl _ _) hahead (fun seen => .ite (.refl _ _) hround) tokens (Nat.le_refl _)

end Rounds

/-- Items up to a closing brace. -/
theorem untilBrace_rounds (item : Parse α) :
    Rounds (untilBrace item) peekKind (fun kind? => kind?.all (· = .punctuation .rightBrace)) item
      List.cons [] where
  zero := rfl
  succ fuel := by
    refine congrArg (peekKind >>= ·) (funext fun kind? => ?_)
    cases kind? with
    | none => rfl
    | some kind =>
        by_cases hbrace : kind = .punctuation .rightBrace
        · simp [hbrace]
        · simp [hbrace]
  ends := ⟨none, rfl, rfl⟩

/-- Items up to a closing brace, or up to the end of the input. -/
def items (item : Parse α) : Parse (List α) :=
  get >>= fun tokens => untilBrace item tokens.length

/-- Items between braces. -/
theorem braced_eq (item : Parse α) :
    braced item = mark .leftBrace >>= fun _ => items item >>= fun found =>
      mark .rightBrace >>= fun _ => Pure.pure found :=
  rfl

/-- Items up to a closing brace agree if the items do. -/
theorem Agree.items {length : Nat} (hitem : 0 < length → Agree length parse other)
    (htakes : Takes parse) : Agree length (Parse.items parse) (Parse.items other) :=
  loop fun _ hfuel => (untilBrace_rounds parse).agree (untilBrace_rounds other) .peekKind htakes
    (fun hpos => (hitem (Nat.lt_of_lt_of_le hpos hfuel)).mono hfuel) (Nat.le_refl _) (Nat.le_refl _)

namespace LeftToRight

/-- Items up to a closing brace. -/
theorem items (hitem : LeftToRight parse) (hasks : ¬ AsksConstant parse) (htakes : Takes parse) :
    LeftToRight (Parse.items parse) :=
  (untilBrace_rounds parse).leftToRight_loop peekKind hitem hasks htakes

/-- Items between braces. -/
theorem braced (hitem : LeftToRight parse) (hasks : ¬ AsksConstant parse) (htakes : Takes parse) :
    LeftToRight (Parse.braced parse) := by
  rw [braced_eq]
  exact bind (mark _) (fun _ => bind (items hitem hasks htakes)
    (fun found => wrap (mark _) fun _ => found) fun _ => nofun) fun _ => nofun

end LeftToRight

/-- Items between braces agree if the items do. -/
theorem Agree.braced {length : Nat} (hitem : 0 < length → Agree length parse other)
    (htakes : Takes parse) : Agree length (Parse.braced parse) (Parse.braced other) := by
  rw [braced_eq, braced_eq]
  exact bind (refl _ _) (.mark _) fun _ => (items hitem htakes).andThen

end ProtoSchema.Parse
