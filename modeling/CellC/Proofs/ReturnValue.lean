import CellC.Proofs.Scripts
import CellC.Proofs.StackDiscipline

/-!
# The value to return

A frame has a place for the value that its activation will return. Only a `return` statement of that
very activation writes there: whatever an expression does, and whatever the functions do that it
calls, the place keeps its content.

## Main definitions

* `Action.KeepsRet`: an action leaves the value to return as it was
* `Request.OfExpressions`: what expressions ask for by themselves

## Main results

* `Config.asks_evaluationScript`: expressions ask for nothing else
* `Config.keepsRet_eval`: the evaluation of any expression leaves the value to return as it was
-/

namespace CellC

variable {α β : Type}

/-! ### The value to return -/

namespace Action

/-- Where the action yields a value, the innermost activation has the same value to return as
before. -/
def KeepsRet (action : Action α) : Prop :=
  ∀ ⦃s a s'⦄, action.Returns s (.ok a) s' → s'.stack.top.ret = s.stack.top.ret

namespace KeepsRet

protected theorem pure (a : α) : KeepsRet (pure a) := by
  intro s b s' run
  cases run
  rfl

protected theorem throw (halt : Halt) : KeepsRet (throw halt : Action α) := by
  intro s b s' run
  cases run

/-- A sequence keeps the value to return when both of its parts do. -/
protected theorem bind {action : Action α} {next : α → Action β} (first : action.KeepsRet)
    (rest : ∀ a, (next a).KeepsRet) : (action >>= next).KeepsRet := by
  intro s b s' run
  obtain ⟨a, t, run, run'⟩ := run.of_bind
  exact (rest a run').trans (first run)

theorem get_bind {next : State → Action α} (rest : ∀ s, (next s).KeepsRet) :
    (get >>= next).KeepsRet :=
  fun s _ _ run => rest s run

/-- Changes of the state that keep the value to return. -/
protected theorem modify {f : State → State}
    (kept : ∀ s, (f s).stack.top.ret = s.stack.top.ret) : KeepsRet (modify f : Action Unit) := by
  intro s b s' run
  cases run
  exact kept s

/-- An update of the innermost frame keeps the value to return when the frame keeps it. -/
theorem modifyTop {f : Frame → Frame} (kept : ∀ frame, (f frame).ret = frame.ret) :
    KeepsRet (Action.modifyTop f) :=
  .modify fun s => by rw [CallStack.top_modifyTop, kept]

theorem modifyRoot {f : Frame → Frame} (kept : ∀ frame, (f frame).ret = frame.ret) :
    KeepsRet (Action.modifyRoot f) := by
  refine .modify fun s => ?_
  obtain ⟨⟨root, _ | ⟨frame, calls⟩⟩⟩ := s
  · exact kept root
  · rfl

theorem emit (event : Event) : KeepsRet (Action.emit event) := .modify fun _ => rfl

theorem ofOption (option : Option α) : KeepsRet (Action.ofOption option) := by
  cases option with
  | none => exact .throw _
  | some a => exact .pure a

theorem ofExcept (outcome : Except Fault α) : KeepsRet (Action.ofExcept outcome) := by
  cases outcome with
  | error fault => exact .throw _
  | ok a => exact .pure a

theorem allocate (size : Cell) (purpose : Purpose) : KeepsRet (Action.allocate size purpose) :=
  have changed (heap : Heap) : KeepsRet (modify ({ · with heap }) : Action Unit) :=
    .modify fun _ => rfl
  get_bind fun _ => (ofExcept _).bind fun _ => (changed _).bind fun _ =>
    (emit _).bind fun _ => .pure _

theorem bindVar (var : VarId) (value : Value) : KeepsRet (Action.bind var value) :=
  modifyTop fun _ => rfl

theorem record (expr : ExprId) (value : Value) : KeepsRet (Action.record expr value) :=
  modifyTop fun _ => rfl

theorem adopt (base : Address) : KeepsRet (Action.modifyTop (·.adopt base)) :=
  modifyTop fun _ => rfl

theorem newArray (size : Cell) : KeepsRet (Action.newArray size) :=
  (allocate size .array).bind fun _ => (adopt _).bind fun _ => .pure _

theorem release (address : Address) : KeepsRet (Action.release address) := by
  intro s purpose s' run
  unfold Returns at run
  rw [run_release] at run
  cases run
  rfl

theorem load (address : Address) (width : Nat) : KeepsRet (Action.load address width) :=
  get_bind fun _ => ofExcept _

theorem store (address : Address) (width : Nat) (cell : Cell) :
    KeepsRet (Action.store address width cell) :=
  get_bind fun _ => (ofExcept _).bind fun _ => .modify fun _ => rfl

theorem readInteger : KeepsRet Action.readInteger := by
  have read : KeepsRet (modifyGet fun state : State =>
      (state.input.read.1, { state with input := state.input.read.2 }) : Action Reading) := by
    intro s reading s' run
    cases run
    rfl
  refine read.bind fun reading => ?_
  cases reading with
  | value n => exact .pure _
  | malformed word error => exact (emit _).bind fun _ => .pure _
  | unavailable => exact .pure _

end KeepsRet

end Action

open CellC.Action (KeepsRet)

/-! ### What expressions ask for -/

/-- What expressions ask for by themselves: neither statements nor runs, and no operation that makes
an array, that makes file-scope variables ready, or that sets a value to return. -/
def Request.OfExpressions : Request → Prop
  | .operate (.newArray _) | .operate .setGlobalsReady | .operate (.returning _) => False
  | .execute _ | .iterate _ _ _ | .run => False
  | .operate _ | .evaluate _ | .invoke _ _ _ => True

/-- The requests that leave the value to return as it was. -/
def Request.SparesRet : Request → Prop
  | .operate (.returning _) | .execute _ | .iterate _ _ _ | .run => False
  | .operate _ | .evaluate _ | .invoke _ _ _ => True

/-- What expressions ask for by themselves touches no value to return. -/
theorem Request.OfExpressions.sparesRet {request : Request} (of : request.OfExpressions) :
    request.SparesRet := by
  cases request with
  | operate operation =>
    cases operation with
    | returning => cases of
    | _ => trivial
  | evaluate | invoke => trivial
  | execute | iterate | run => cases of

namespace Config

variable {config : Config}

open Script (operate)

/-- The address of an element is asked for by two evaluations. -/
theorem asks_subscriptScript (base index : ExprId) :
    (config.subscriptScript base index).Asks Request.OfExpressions :=
  ⟨trivial, fun _ => ⟨trivial, fun _ => trivial⟩⟩

theorem asks_unaryScript (op : UnaryOp) (operand : ExprId) (type : TypeId) :
    (config.unaryScript op operand type).Asks Request.OfExpressions := by
  cases op with
  | addrOf => exact ⟨trivial, nofun⟩
  | deref | neg | plus | bitNot | not => exact ⟨trivial, fun _ => ⟨trivial, fun _ => trivial⟩⟩

/-- An assignment asks for its parts, and for the store or the binding. -/
theorem asks_assignScript (target value : ExprId) :
    (config.assignScript target value).Asks Request.OfExpressions := by
  refine ⟨trivial, fun v => ⟨trivial, fun (node : Expr) => ?_⟩⟩
  obtain ⟨form, type⟩ := node
  have finish (stored : Value) : (do
      operate (.record (config.program.unparen target) stored)
      pure stored : Script Value).Asks Request.OfExpressions := ⟨trivial, fun _ => trivial⟩
  cases form with
  | ident var => exact ⟨trivial, fun _ => finish _⟩
  | index base index => exact ⟨trivial, fun _ => ⟨trivial, fun _ => ⟨trivial, fun _ => finish _⟩⟩⟩
  | unary op operand =>
    cases op with
    | deref => exact ⟨trivial, fun _ => ⟨trivial, fun _ => finish _⟩⟩
    | neg | plus | bitNot | not | addrOf => exact ⟨trivial, nofun⟩
  | intLit | charLit | strLit | paren | sizeOf | binary | call | cast => exact ⟨trivial, nofun⟩

/-- An operation asks for its operands. -/
theorem asks_binaryScript (op : BinaryOp) (left right : ExprId) (type : TypeId) :
    (config.binaryScript op left right type).Asks Request.OfExpressions := by
  unfold binaryScript
  split
  · exact ⟨trivial, nofun⟩
  split
  · exact asks_assignScript left right
  · exact ⟨trivial, fun _ => ⟨trivial, fun _ => ⟨trivial, fun _ => trivial⟩⟩⟩

theorem asks_argsScript (exprs : List ExprId) : (argsScript exprs).Asks Request.OfExpressions := by
  induction exprs with
  | nil => trivial
  | cons expr exprs ih => exact ⟨trivial, fun _ => ih.bind fun _ => trivial⟩

/-- Whatever its form, an expression asks for what expressions ask for by themselves. -/
theorem asks_expressionScript (id : ExprId) (expr : Expr) :
    (config.expressionScript id expr).Asks Request.OfExpressions := by
  obtain ⟨form, type⟩ := expr
  cases form with
  | ident | paren | cast => exact ⟨trivial, fun _ => trivial⟩
  | intLit | charLit | sizeOf => trivial
  | strLit => exact ⟨trivial, nofun⟩
  | unary op operand => exact asks_unaryScript op operand type
  | binary op left right => exact asks_binaryScript op left right type
  | index base index =>
    exact (asks_subscriptScript base index).bind fun _ => ⟨trivial, fun _ => trivial⟩
  | call callee args =>
    refine ⟨trivial, fun _ => (asks_argsScript args).bind fun values => ⟨trivial, fun _ => ?_⟩⟩
    cases config.setup.primitive? callee with
    | some primitive =>
      refine (config.asks_primitiveScript primitive values type).mono fun request serves => ?_
      unfold Request.ServesPrimitives at serves
      split at serves <;> trivial
    | none => exact ⟨trivial, fun _ => trivial⟩

/-- No expression asks for a statement, a new array or a value to return by itself. -/
theorem asks_evaluationScript (id : ExprId) :
    (config.evaluationScript id).Asks Request.OfExpressions :=
  ⟨trivial, fun expr => (asks_expressionScript id expr).bind fun _ =>
    ⟨trivial, fun _ => trivial⟩⟩

/-! ### Requests that leave the value to return alone -/

/-- Of all operations only one sets the value to return. -/
theorem keepsRet_perform {operation : Operation} (spares : (Request.operate operation).SparesRet) :
    (config.perform operation).KeepsRet := by
  cases operation with
  | returning => cases spares
  | expr | stmt | var | func => exact .ofOption _
  | fail => exact .throw _
  | compute outcome => exact .ofExcept outcome
  | note event => exact .emit event
  | varValue var =>
    refine .get_bind fun s => ?_
    split
    · exact .pure _
    · exact .throw _
  | assignVar var value =>
    refine .get_bind fun s => ?_
    split
    · exact .modifyRoot fun _ => rfl
    · exact .bindVar var value
  | bind var value => exact .bindVar var value
  | record expr value => exact .record expr value
  | load address type =>
    show KeepsRet (config.loadAt address type)
    unfold loadAt
    split
    · exact .pure _
    · exact (KeepsRet.load _ _).bind fun _ => .pure _
  | store => exact .store _ _ _
  | newArray size => exact .newArray size
  | allocate size => exact .allocate size .explicit
  | release address => exact .release address
  | println | setGlobalsReady => exact .modify fun _ => rfl
  | read => exact .readInteger
  | checkDepth =>
    show KeepsRet config.checkDepth
    unfold checkDepth
    split
    · refine .get_bind fun _ => ?_
      split
      · exact .throw _
      · exact .pure _
    · exact .pure _
  | globalsReady => exact .get_bind fun _ => .pure _

/-- Binding the parameters is no return. -/
theorem keepsRet_bindParams (params : List VarId) (values : List Value) :
    (config.bindParams params values).KeepsRet := by
  induction params generalizing values with
  | nil => exact .pure _
  | cons var vars ih =>
    cases values with
    | nil => exact .pure _
    | cons value values =>
      exact (KeepsRet.ofOption _).bind fun decl => (KeepsRet.bindVar _ _).bind fun _ => ih values

end Config

/-- The frame below a call has the value to return that it had when the call began. -/
theorem CallStack.Returned.top_ret {setup : Setup} {before after : CallStack}
    (h : before.Returned setup after) : after.top.ret = before.top.ret := by
  unfold top
  rw [h.calls]
  cases before.calls with
  | nil => exact h.fileScope.ret
  | cons frame calls => rfl

namespace Config

/-- The functions that an expression calls work in frames of their own. -/
theorem keepsRet_functionCall (config : Config) (levels : Nat) (callee : FuncId)
    (values : List Value) (type : TypeId) :
    (config.functionCall (CellC.exec config levels) callee values type).KeepsRet :=
  fun _ _ _ run => (returned_of_functionCall run).1.top_ret

/-- Whatever it calls on its way, an evaluation leaves the value to return as it was. -/
theorem keepsRet_eval (config : Config) (levels : Nat) (id : ExprId) :
    (CellC.eval config levels id).KeepsRet := by
  induction levels generalizing id with
  | zero => exact .throw _
  | succ levels ih =>
    rw [eval_eq_run]
    refine (asks_evaluationScript id).holds (Q := KeepsRet) .pure .bind fun request of => ?_
    cases request with
    | operate => exact keepsRet_perform of.sparesRet
    | evaluate id => exact ih id
    | invoke => exact config.keepsRet_functionCall levels _ _ _
    | execute | iterate | run => cases of

/-- No request that spares the value to return changes it, on any level. -/
theorem keepsRet_carryOut (config : Config) (levels : Nat) {request : Request}
    (spares : request.SparesRet) : (config.carryOut levels request).KeepsRet := by
  cases request with
  | operate => exact keepsRet_perform spares
  | evaluate id => exact config.keepsRet_eval levels id
  | invoke => exact config.keepsRet_functionCall levels _ _ _
  | execute | iterate | run => cases spares

end Config

end CellC
