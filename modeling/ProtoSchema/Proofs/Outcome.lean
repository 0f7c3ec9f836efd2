import Mathlib.Data.List.Basic

/-!
# Chains of steps that may fail

When a chain of fallible steps succeeds. `bind_eq_ok_iff` opens one link of a chain, and
`mapM_eq_ok_iff` a step that is taken for every element of a list, which fails where the first of
these steps does (`mapM_eq_error_iff`). `mapM_eq_some` is for steps that give nothing when they
fail, and `run_bind` for steps that change a state, which stays as it is when they fail.
-/

namespace ProtoSchema

variable {ε α β : Type}

/-- A chain succeeds when its first step does and the rest does from there. -/
theorem bind_eq_ok_iff {first : Except ε α} {rest : α → Except ε β} {result : β} :
    (first >>= rest) = .ok result ↔ ∃ value, first = .ok value ∧ rest value = .ok result := by
  cases first with
  | error cause => simp [bind, Except.bind]
  | ok value => simp [bind, Except.bind]

/-- A chain fails when its first step does or the rest does from there. -/
theorem bind_eq_error_iff {first : Except ε α} {rest : α → Except ε β} {cause : ε} :
    (first >>= rest) = .error cause ↔
      first = .error cause ∨ ∃ value, first = .ok value ∧ rest value = .error cause := by
  cases first with
  | error error => simp [bind, Except.bind]
  | ok value => simp [bind, Except.bind]

/-- What succeeds does not fail. -/
theorem ok_error_elim {outcome : Except ε α} {value : α} {cause : ε} {conclusion : Prop}
    (hok : outcome = .ok value) (herror : outcome = .error cause) :
    conclusion := by
  rw [hok] at herror
  cases herror

/-- A pure step gives its value. -/
theorem pure_eq_ok_iff {value result : α} :
    (pure value : Except ε α) = .ok result ↔ value = result := by
  simp [pure, Except.pure]

/-- A mapped action succeeds exactly when the action does. -/
theorem map_eq_ok_iff {action : Except ε α} {map : α → β} {result : β} :
    action.map map = .ok result ↔ ∃ value, action = .ok value ∧ map value = result := by
  cases action <;> simp [Except.map]

/-- A mapped action fails exactly when the action does. -/
theorem map_eq_error_iff {action : Except ε α} {map : α → β} {cause : ε} :
    action.map map = .error cause ↔ action = .error cause := by
  cases action <;> simp [Except.map]

/-- A step taken for every element of a list succeeds when it does for each, in order. -/
theorem mapM_eq_ok_iff {step : α → Except ε β} {items : List α} {results : List β} :
    items.mapM step = .ok results ↔ items.map step = results.map .ok := by
  induction items generalizing results with
  | nil =>
      rw [List.mapM_nil, pure_eq_ok_iff]
      cases results <;> simp
  | cons item items ih =>
      rw [List.mapM_cons, bind_eq_ok_iff]
      constructor
      · rintro ⟨value, hvalue, h⟩
        obtain ⟨values, hvalues, h⟩ := bind_eq_ok_iff.mp h
        obtain rfl := pure_eq_ok_iff.mp h
        rw [List.map_cons, List.map_cons, hvalue, ih.mp hvalues]
      · intro h
        cases results with
        | nil => simp at h
        | cons value values =>
            simp only [List.map_cons, List.cons.injEq] at h
            refine ⟨value, h.1, bind_eq_ok_iff.mpr ⟨values, ih.mpr h.2, rfl⟩⟩

/-- A step that succeeds for every element of a list does so in every order, with the results in
that order. -/
theorem mapM_perm {step : α → Except ε β} {items others : List α} (hperm : items.Perm others)
    {results : List β} (h : items.mapM step = .ok results) :
    ∃ again, others.mapM step = .ok again ∧ results.Perm again := by
  simp only [mapM_eq_ok_iff] at h ⊢
  induction hperm generalizing results with
  | nil => exact ⟨results, h, .refl results⟩
  | cons item _ ih =>
      obtain ⟨result, rest, rfl, hresult, hrest⟩ := List.map_eq_cons_iff.mp h.symm
      obtain ⟨again, hagain, hsame⟩ := ih hrest.symm
      exact ⟨result :: again, by rw [List.map_cons, List.map_cons, hresult, hagain],
        hsame.cons result⟩
  | swap first second items =>
      obtain ⟨result, rest, rfl, hresult, hrest⟩ := List.map_eq_cons_iff.mp h.symm
      obtain ⟨other, rest, rfl, hother, hrest⟩ := List.map_eq_cons_iff.mp hrest
      refine ⟨other :: result :: rest, ?_, .swap other result rest⟩
      simp only [List.map_cons, hresult, hother, hrest]
  | trans _ _ ihfirst ihsecond =>
      obtain ⟨middle, hmiddle, hfirst⟩ := ihfirst h
      obtain ⟨again, hagain, hsecond⟩ := ihsecond hmiddle
      exact ⟨again, hagain, hfirst.trans hsecond⟩

/-- A step taken for every element of a list fails where it first does. -/
theorem mapM_eq_error_iff {step : α → Except ε β} {items : List α} {cause : ε} :
    items.mapM step = .error cause ↔
      ∃ before item after, items = before ++ item :: after ∧
        (∀ earlier ∈ before, ∃ value, step earlier = .ok value) ∧ step item = .error cause := by
  induction items with
  | nil => simp [pure, Except.pure]
  | cons first items ih =>
      rw [List.mapM_cons, bind_eq_error_iff]
      constructor
      · rintro (hfirst | ⟨value, hfirst, hrest⟩)
        · exact ⟨[], first, items, rfl, by simp, hfirst⟩
        · rcases bind_eq_error_iff.mp hrest with hitems | ⟨values, -, hpure⟩
          · obtain ⟨before, item, after, rfl, hbefore, hitem⟩ := ih.mp hitems
            exact ⟨first :: before, item, after, rfl,
              List.forall_mem_cons.mpr ⟨⟨value, hfirst⟩, hbefore⟩, hitem⟩
          · cases hpure
      · rintro ⟨before, item, after, hitems, hbefore, hitem⟩
        cases before with
        | nil =>
            obtain ⟨rfl, -⟩ := List.cons.inj hitems
            exact .inl hitem
        | cons earlier before =>
            obtain ⟨rfl, rfl⟩ := List.cons.inj hitems
            obtain ⟨⟨value, hfirst⟩, hbefore⟩ := List.forall_mem_cons.mp hbefore
            have hrest := ih.mpr ⟨before, item, after, rfl, hbefore, hitem⟩
            exact .inr ⟨value, hfirst, bind_eq_error_iff.mpr (.inl hrest)⟩

/-- A step taken for every element of a list gives something when it does for each, in order. -/
theorem mapM_eq_some_iff {step : α → Option β} {items : List α} {results : List β} :
    items.mapM step = some results ↔ items.map step = results.map some := by
  induction items generalizing results with
  | nil => cases results <;> simp
  | cons item items ih =>
      rw [List.mapM_cons, List.map_cons]
      cases hitem : step item with
      | none => cases results <;> simp
      | some value =>
          cases results with
          | nil => cases items.mapM step <;> simp
          | cons first rest =>
              rw [List.map_cons, List.cons.injEq, ← ih]
              cases items.mapM step <;> simp

/-- A step that succeeds for every element of a list gives all results. -/
theorem mapM_eq_some {step : α → Option β} {result : α → β} {items : List α}
    (h : ∀ item ∈ items, step item = some (result item)) :
    items.mapM step = some (items.map result) := by
  rw [mapM_eq_some_iff, List.map_map]
  exact List.map_congr_left h

/-! ### Steps that change a state -/

variable {σ : Type}

/-- A chain goes on from the state that its first step leaves, unless that step fails. -/
theorem run_bind (first : ExceptT ε (StateM σ) α) (rest : α → ExceptT ε (StateM σ) β) (state : σ) :
    (first >>= rest).run.run state =
      match first.run.run state with
      | (.ok value, next) => (rest value).run.run next
      | (.error cause, next) => (.error cause, next) := by
  show (match first.run.run state with
    | (outcome, next) => (ExceptT.bindCont rest outcome).run next) = _
  cases first.run.run state with
  | mk outcome next => cases outcome <;> rfl

/-- A chain whose first step succeeds goes on with the value and the state of this step. -/
theorem run_bind_of_ok {first : ExceptT ε (StateM σ) α} {rest : α → ExceptT ε (StateM σ) β}
    {before middle : σ} {value : α} (h : first.run.run before = (.ok value, middle)) :
    (first >>= rest).run.run before = (rest value).run.run middle := by
  rw [run_bind, h]

/-- A chain whose first step fails goes no further. -/
theorem run_bind_of_error {first : ExceptT ε (StateM σ) α} {rest : α → ExceptT ε (StateM σ) β}
    {before after : σ} {cause : ε} (h : first.run.run before = (.error cause, after)) :
    (first >>= rest).run.run before = (.error cause, after) := by
  rw [run_bind, h]

/-- A chain succeeds when its first step does and the rest does from the state it leaves. -/
theorem run_bind_eq_ok_iff {first : ExceptT ε (StateM σ) α} {rest : α → ExceptT ε (StateM σ) β}
    {before after : σ} {result : β} :
    (first >>= rest).run.run before = (.ok result, after) ↔
      ∃ value middle, first.run.run before = (.ok value, middle) ∧
        (rest value).run.run middle = (.ok result, after) := by
  rw [run_bind]
  cases first.run.run before with
  | mk outcome next =>
      cases outcome with
      | error cause =>
          constructor
          · intro h
            cases h
          · rintro ⟨value, middle, h, -⟩
            cases h
      | ok value =>
          constructor
          · intro h
            exact ⟨value, next, rfl, h⟩
          · rintro ⟨other, middle, h, hrest⟩
            cases h
            exact hrest

/-- A chain fails when its first step does or the rest does from the state it leaves. -/
theorem run_bind_eq_error_iff {first : ExceptT ε (StateM σ) α}
    {rest : α → ExceptT ε (StateM σ) β} {before after : σ} {cause : ε} :
    (first >>= rest).run.run before = (.error cause, after) ↔
      first.run.run before = (.error cause, after) ∨
      ∃ value middle, first.run.run before = (.ok value, middle) ∧
        (rest value).run.run middle = (.error cause, after) := by
  rw [run_bind]
  cases first.run.run before with
  | mk outcome next =>
      cases outcome with
      | error error =>
          -- The two failures differ in the type of the value that is missing.
          constructor
          · intro h
            cases h
            exact .inl rfl
          · rintro (h | ⟨value, middle, h, -⟩)
            · cases h
              rfl
            · cases h
      | ok value =>
          constructor
          · intro h
            exact .inr ⟨value, next, rfl, h⟩
          · rintro (h | ⟨other, middle, h, hrest⟩)
            · cases h
            · cases h
              exact hrest

end ProtoSchema
