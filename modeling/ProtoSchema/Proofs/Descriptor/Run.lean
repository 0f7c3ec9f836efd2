import ProtoSchema.Proofs.Descriptor.Visit
import ProtoSchema.Proofs.Outcome

/-!
# Callbacks that fail

A callback may change a state and may fail. A visit runs its callbacks on a list of calls that does
not depend on them, one after the other, and the first failure ends it (`Visit.Runs`).
`Visit.runs_iff_eq_calls` is the main statement. It says that this list is the only one of its kind,
and what becomes of it where enumerations have no callback.
-/

namespace ProtoSchema

/-- The call is for a message. -/
def Call.isMessage (call : Call) : Bool :=
  match call.declared with
  | .enum _ => false
  | .message _ => true

namespace Visit

variable {ε σ : Type} {callback : Call → ExceptT ε (StateM σ) Unit}

/-- The calls succeed one after the other, and take the first state to the second one. -/
inductive Returns (callback : Call → ExceptT ε (StateM σ) Unit) : List Call → σ → σ → Prop
  | nil {state : σ} : Returns callback [] state state
  | cons {call : Call} {rest : List Call} {state next last : σ}
      (hcall : (callback call).run.run state = (.ok (), next))
      (hrest : Returns callback rest next last) : Returns callback (call :: rest) state last

/-- What comes of the calls, made in order from a state: all of them succeed, or those before one
succeed and this one fails. Then its failure is the result, in the state that it leaves. -/
inductive Runs (callback : Call → ExceptT ε (StateM σ) Unit) (list : List Call) (state : σ) :
    Except ε Unit × σ → Prop
  | finished {last : σ} (h : Returns callback list state last) :
      Runs callback list state (.ok (), last)
  | failed {before after : List Call} {call : Call} {current last : σ} {error : ε}
      (hlist : list = before ++ call :: after) (hbefore : Returns callback before state current)
      (hcall : (callback call).run.run current = (.error error, last)) :
      Runs callback list state (.error error, last)

/-- A call that succeeds comes before a run. -/
theorem Runs.cons {call : Call} {rest : List Call} {state next : σ} {result : Except ε Unit × σ}
    (hcall : (callback call).run.run state = (.ok (), next)) (h : Runs callback rest next result) :
    Runs callback (call :: rest) state result := by
  cases h with
  | finished hrest => exact .finished (.cons hcall hrest)
  | failed hlist hbefore hfailed =>
      subst hlist
      exact .failed rfl (.cons hcall hbefore) hfailed

/-- Making calls one after the other is a run. -/
theorem runs_forM (callback : Call → ExceptT ε (StateM σ) Unit) (list : List Call) (state : σ) :
    Runs callback list state ((list.forM callback).run.run state) := by
  induction list generalizing state with
  | nil => exact .finished .nil
  | cons call rest ih =>
      rw [List.forM_eq_forM, List.forM_cons, run_bind]
      cases hcall : (callback call).run.run state with
      | mk outcome next =>
          cases outcome with
          | ok => exact .cons hcall (ih next)
          | error error => exact .failed rfl .nil hcall

/-! ### The visitor that keeps its calls -/

/-- The visitor that notes its calls and never fails. -/
def recorder : Visitor (ExceptT Empty (StateM (List Call))) where
  onEnum call := modify (· ++ [call])
  onMessage call := modify (· ++ [call])

/-- A call is noted behind those before it. -/
theorem run_recorder (call : Call) (state : List Call) :
    (recorder.accept call).run.run state = (.ok (), state ++ [call]) := by
  obtain ⟨outputName, protoName, declared, cursor⟩ := call
  cases declared <;> rfl

/-- All calls are noted, in order. -/
theorem Returns.recorded {list state last : List Call}
    (h : Returns recorder.accept list state last) :
    last = state ++ list := by
  induction h with
  | nil => rw [List.append_nil]
  | cons hcall _ ih =>
      rw [run_recorder] at hcall
      cases hcall
      rw [ih, List.append_assoc, List.singleton_append]

/-- A run that notes its calls is finished with all of them. -/
theorem Runs.recorded {list : List Call} {result : Except Empty Unit × List Call}
    (h : Runs recorder.accept list [] result) : result.2 = list := by
  cases h with
  | finished hreturns => exact hreturns.recorded
  | failed _ _ hcall =>
      rw [run_recorder] at hcall
      cases hcall

/-! ### Visits without a callback for enumerations -/

/-- Where enumerations have no callback, the other calls are made. -/
theorem forM_accept_ofCallbacks {m : Type → Type} [Monad m] [LawfulMonad m]
    (onMessage : Call → m Unit) (list : List Call) :
    list.forM (Visitor.ofCallbacks onMessage).accept =
      (list.filter Call.isMessage).forM onMessage := by
  simp only [List.forM_eq_forM]
  induction list with
  | nil => rfl
  | cons call rest ih =>
      obtain ⟨outputName, protoName, declared, cursor⟩ := call
      rw [List.forM_cons, ih]
      cases declared with
      | enum => exact pure_bind _ _
      | message =>
          rw [List.filter_cons_of_pos rfl, List.forM_cons]
          rfl

/-- For every scope, frame and options there is exactly one list of calls that every visit runs its
callbacks on, whatever state these change and whatever failures they have: `calls`. The first call
that fails ends the visit with its failure, in the state that it leaves, and services are not
visited after it. Where enumerations have no callback, the calls for messages are made, in the same
order. -/
theorem runs_iff_eq_calls (options : NamingOptions) (frame : Frame) (scope : Scope)
    (list : List Call) :
    (∀ (ε σ : Type) (visitor : Visitor (ExceptT ε (StateM σ)))
        (onService : ServiceDescriptor → Cursor → ExceptT ε (StateM σ) Unit)
        (services : List ServiceDescriptor) (state : σ),
      Runs visitor.accept list state ((Visit.scope visitor options frame scope).run.run state) ∧
      Runs visitor.onMessage (list.filter Call.isMessage) state
        ((Visit.scope (.ofCallbacks visitor.onMessage) options frame scope).run.run state) ∧
      ∀ error last,
        (Visit.scope visitor options frame scope).run.run state = (.error error, last) →
        (do Visit.scope visitor options frame scope
            Visit.services onService frame.cursor 0 services).run.run state =
          (.error error, last)) ↔
    list = calls options frame scope := by
  constructor
  · intro h
    obtain ⟨hlist, -⟩ := h Empty (List Call) recorder (fun _ _ => pure ()) [] []
    have hcalls := runs_forM recorder.accept (calls options frame scope) []
    rw [← scope_eq_forM] at hcalls
    exact hlist.recorded.symm.trans hcalls.recorded
  · rintro rfl ε σ visitor onService services state
    refine ⟨?_, ?_, fun error last h => run_bind_of_error h⟩
    · rw [scope_eq_forM]
      exact runs_forM visitor.accept _ state
    · rw [scope_eq_forM, forM_accept_ofCallbacks]
      exact runs_forM visitor.onMessage _ state

/-- A failure inside a message ends the visit before the messages behind it. -/
example :
    let note (call : Call) : ExceptT Text (StateM (List Text)) Unit :=
      modify (· ++ [call.outputName])
    let visitor : Visitor (ExceptT Text (StateM (List Text))) :=
      { onEnum := note
        onMessage := fun call => do
          note call
          if call.protoName = "Order.Item" then throw (Text.ofString "stopped") }
    (Visit.scope visitor {} { cursor := .root .empty } shopFile.scope).run.run [] =
      ((.error "stopped", ["Kind", "Order", "OrderStatus", "OrderItem"]) :
        Except Text Unit × List Text) := by
  rfl

end Visit

end ProtoSchema
