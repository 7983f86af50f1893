import CellC.Proofs.Ownership.Ledger
import CellC.Proofs.Parts
import CellC.Proofs.ReturnValue

/-!
# Steady evaluations

Only a declaration adds to the arrays that a frame lists, and only a run makes file-scope variables
ready. An expression asks for neither by itself, and what the functions do that it calls happens in
frames of their own. So an evaluation leaves the arrays of the innermost frame as they are, and the
readiness of file-scope variables too, whatever it comes to and however it ends.

## Main definitions

* `State.Steady`: no new array in the innermost frame, and the same readiness
* `Request.IsSteady`: the requests that are steady whatever they lead to

## Main results

* `Config.steady_of_expressions`: what expressions ask for is steady
* `Config.steady_carryOut`: steady requests are steady whatever they lead to
-/

namespace CellC

variable {α β : Type}

/-! ### Steady actions -/

/-- The file-scope variables are as ready in the second state as in the first. -/
def State.AsReady (s t : State) : Prop := t.globalsReady = s.globalsReady

/-- From one state to the other the innermost activation has made no array, and file-scope variables
have not become ready. -/
structure State.Steady (s t : State) : Prop where
  arrays : t.stack.top.arrays = s.stack.top.arrays
  ready : s.AsReady t

namespace State.Steady

theorem refl (s : State) : s.Steady s := ⟨rfl, rfl⟩

theorem trans {s t u : State} (first : s.Steady t) (second : t.Steady u) : s.Steady u :=
  ⟨second.arrays.trans first.arrays, second.ready.trans first.ready⟩

end State.Steady

/-- However the action returns, it was steady. -/
def Action.Steady (action : Action α) : Prop :=
  ∀ ⦃s result t⦄, action.Returns s result t → s.Steady t

namespace Action.Steady

protected theorem pure (a : α) : (pure a : Action α).Steady := by
  intro s result t returned
  cases result <;> cases returned
  exact .refl s

protected theorem throw (halt : Halt) : (throw halt : Action α).Steady := by
  intro s result t returned
  cases result <;> cases returned
  exact .refl s

/-- An action that hands its answer on to another is steady when both are. -/
protected theorem bind {action : Action α} {next : α → Action β} (first : action.Steady)
    (rest : ∀ a, (next a).Steady) : (action >>= next).Steady := by
  intro s result t returned
  obtain ⟨a, u, acted, rested⟩ | ⟨fault, -, failed⟩ := Action.returns_bind_iff.mp returned
  · exact (first acted).trans (rest a rested)
  · exact first failed

theorem get_bind {next : State → Action α} (rest : ∀ s, (next s).Steady) :
    (get >>= next).Steady :=
  fun s _ _ returned => rest s returned

/-- An update of the state is steady when each state and its update are. -/
protected theorem modifyGet {f : State → α × State} (kept : ∀ s : State, s.Steady (f s).2) :
    (modifyGet f : Action α).Steady := by
  intro s result t returned
  cases result <;> cases returned
  exact kept s

protected theorem modify {f : State → State} (kept : ∀ s : State, s.Steady (f s)) :
    (modify f : Action Unit).Steady :=
  .modifyGet kept

/-- An update of the innermost frame is steady when it leaves the arrays of the frame alone. -/
theorem modifyTop {f : Frame → Frame} (kept : ∀ frame, (f frame).arrays = frame.arrays) :
    (Action.modifyTop f).Steady :=
  .modify fun s => ⟨by rw [CallStack.top_modifyTop, kept], rfl⟩

theorem modifyRoot {f : Frame → Frame} (kept : ∀ frame, (f frame).arrays = frame.arrays) :
    (Action.modifyRoot f).Steady := by
  refine .modify fun s => ⟨?_, rfl⟩
  obtain ⟨⟨root, _ | ⟨frame, calls⟩⟩⟩ := s
  · exact kept root
  · rfl

theorem ofOption (option : Option α) : (Action.ofOption option).Steady := by
  cases option with
  | none => exact .throw _
  | some a => exact .pure a

theorem ofExcept (outcome : Except Fault α) : (Action.ofExcept outcome).Steady := by
  cases outcome with
  | error fault => exact .throw _
  | ok a => exact .pure a

theorem emit (event : Event) : (Action.emit event).Steady := .modify fun _ => ⟨rfl, rfl⟩

theorem allocate (size : Cell) (purpose : Purpose) : (Action.allocate size purpose).Steady :=
  have changed (heap : Heap) : (modify ({ · with heap }) : Action Unit).Steady :=
    .modify fun _ => ⟨rfl, rfl⟩
  get_bind fun _ => (ofExcept _).bind fun _ => (changed _).bind fun _ => (emit _).bind fun _ =>
    .pure _

theorem release (address : Address) : (Action.release address).Steady := by
  intro s result t returned
  unfold Returns at returned
  rw [run_release] at returned
  cases result <;> cases returned
  exact ⟨rfl, rfl⟩

theorem readInteger : Action.readInteger.Steady := by
  have read : (modifyGet fun state : State =>
      (state.input.read.1, { state with input := state.input.read.2 }) : Action Reading).Steady :=
    .modifyGet fun _ => ⟨rfl, rfl⟩
  refine read.bind fun reading => ?_
  cases reading with
  | value n => exact .pure _
  | malformed word error => exact (emit _).bind fun _ => .pure _
  | unavailable => exact .pure _

end Action.Steady

/-- The requests that are steady whatever they lead to: all but those for statements and for runs,
and the operations that make an array or make file-scope variables ready. -/
def Request.IsSteady : Request → Prop
  | .operate (.newArray _) | .operate .setGlobalsReady => False
  | .execute _ | .iterate _ _ _ | .run => False
  | .operate _ | .evaluate _ | .invoke _ _ _ => True

namespace Config

variable {config : Config} {levels : Nat} {s t : State}

open CellC.Action (Steady)

/-- The operations that neither make an array nor make file-scope variables ready are steady. -/
theorem steady_perform {operation : Operation} (steady : (Request.operate operation).IsSteady) :
    (config.perform operation).Steady := by
  cases operation with
  | newArray | setGlobalsReady => cases steady
  | expr | stmt | var | func => exact .ofOption _
  | fail fault => exact .throw _
  | compute outcome => exact .ofExcept outcome
  | note event => exact .emit event
  | varValue var =>
    refine .get_bind fun s => ?_
    split
    · exact .pure _
    · exact .throw _
  | assignVar var value =>
    refine .get_bind fun s => ?_
    split
    · exact .modifyRoot fun _ => rfl
    · exact .modifyTop fun _ => rfl
  | bind | record | returning => exact .modifyTop fun _ => rfl
  | load address type =>
    show Steady (config.loadAt address type)
    unfold loadAt
    split
    · exact .pure _
    · exact (Steady.get_bind fun _ => .ofExcept _).bind fun _ => .pure _
  | store address type value =>
    exact .get_bind fun _ => (Steady.ofExcept _).bind fun _ => .modify fun _ => ⟨rfl, rfl⟩
  | allocate size => exact .allocate _ _
  | release address => exact .release address
  | println line => exact .modify fun _ => ⟨rfl, rfl⟩
  | read => exact .readInteger
  | checkDepth =>
    show Steady config.checkDepth
    unfold checkDepth
    split
    · refine .get_bind fun _ => ?_
      split
      · exact .throw _
      · exact .pure _
    · exact .pure _
  | globalsReady => exact .get_bind fun _ => .pure _

/-- What expressions ask for is steady. -/
theorem steady_of_expressions {request : Request} (of : request.OfExpressions) :
    request.IsSteady := by
  cases request with
  | operate operation =>
    cases operation with
    | newArray | setGlobalsReady => cases of
    | _ => trivial
  | evaluate | invoke => trivial
  | execute | iterate | run => cases of

/-! ### Evaluations and calls -/

/-- No single step makes file-scope variables ready. -/
theorem steps_asReady (config : Config) : config.Steps State.AsReady where
  remark _ _ _ := rfl
  bind _ _ _ := rfl
  bindRoot _ _ _ _ := rfl
  record _ _ _ := rfl
  returning _ _ := rfl
  store _ _ _ _ _ _ := rfl
  newArray _ _ _ _ _ := rfl
  newBlock _ _ _ _ _ := rfl
  dispatch _ _ _ _ _ _ _ _ := rfl
  free _ _ _ _ _ _ _ _ := rfl
  println _ _ := rfl
  read _ := rfl

/-- Discarding a frame leaves file-scope variables as ready as they were, and so does failing to. -/
theorem settles_popFrame (start : s.AsReady t) :
    Action.Settles s.AsReady (fun _ => s.AsReady) (Action.popFrame.run t) := by
  cases found : t.stack.calls with
  | nil =>
    rw [Action.run_popFrame_nil found]
    exact .fault start
  | cons frame calls =>
    rw [Action.run_popFrame_cons found]
    exact .ok start

/-- A call does not make file-scope variables ready, whatever it does and however it returns. -/
theorem asReady_of_functionCall {callee : FuncId} {values : List Value} {type : TypeId}
    {result : Except Fault Value}
    (returned : (config.functionCall (CellC.exec config levels) callee values type).Returns s
      result t) : s.AsReady t := by
  have rules := config.steps_asReady.correspondence (P := State.AsReady) (Q := fun s _ => s.AsReady)
    (fun _ _ _ same step => step.trans same) (fun _ _ _ _ same => same)
    (fun _ t same => ⟨t, rfl, fun _ inside => settles_popFrame (inside.trans same),
      fun _ _ inside => settles_popFrame (inside.trans same)⟩)
  have related := rules.functionCall (i := s) (rules.exec levels) callee type
    (rfl : values.map Value.cell = _)
  have settles := Closed.settles_of_related (R := State.AsReady) (E := fun _ => State.AsReady)
    related rfl
  exact (Outcome.of_settles settles returned).elim

/-- A whole call is steady: the frame it opens is gone when it ends. -/
theorem steady_invoke (callee : FuncId) (values : List Value) (type : TypeId) :
    (config.functionCall (CellC.exec config levels) callee values type).Steady := fun _ _ _ run =>
  ⟨(returned_of_functionCall run).1.top_arrays, asReady_of_functionCall run⟩

/-- Evaluations are steady at every number of levels. -/
theorem steady_evaluate (levels : Nat) (id : ExprId) : (CellC.eval config levels id).Steady := by
  induction levels generalizing id with
  | zero => exact .throw _
  | succ levels ih =>
    intro s result t returned
    rw [eval_eq_run] at returned
    refine (asks_evaluationScript id).keeps .refl .trans (fun request of => ?_) returned
    cases request with
    | operate => exact fun returned => steady_perform (steady_of_expressions of) returned
    | evaluate id => exact fun returned => ih id returned
    | invoke => exact fun returned => steady_invoke _ _ _ returned
    | execute | iterate | run => cases of

/-- The machine serves every steady request steadily. -/
theorem steady_carryOut {request : Request} (steady : request.IsSteady) :
    (config.carryOut levels request).Steady := by
  cases request with
  | operate => exact steady_perform steady
  | evaluate id => exact steady_evaluate levels id
  | invoke => exact steady_invoke _ _ _
  | execute | iterate | run => cases steady

/-- A script that makes steady requests only is steady as a whole. -/
theorem steady_script {script : Script α} (asks : script.Asks Request.IsSteady) :
    (script.run (config.carryOut levels)).Steady := fun _ _ _ returned =>
  asks.keeps .refl .trans (fun _ steady _ _ _ => @steady_carryOut config levels _ steady _ _ _)
    returned

end Config

end CellC
