import CellC.Proofs.Typing.Static
import CellC.Proofs.Yields

/-!
# Calls without effects

A function that computes its value from its arguments has no effect but what is recorded and
reported on the way, even if it calls itself or other functions of this kind. Its body says which
value is returned, and when the frame is popped nothing else is left of the call. The rules of this
module derive such calls from the statements and expressions of a body. They do not tell apart
states that differ only in what is recorded and reported.

## Main definitions

* `Config.EndsLike`: a request ends in such a state
* `Config.Replies`: a statement returns a value or goes wrong, and has no other effect

## Main results

* `Config.EndsLike.of_unaffected`: requests end alike in states that are not affected
* `Config.Replies.return`, `Config.Replies.branch`, `Config.Replies.compound`: statements that reply
* `Config.Replies.invoke`: a call whose body replies
* `Config.EndsLike.call`: a call expression
-/

namespace CellC

open CellC.Action (Follows)

variable {α β : Type}

namespace State

/-- The state with the value to return, if there is one. -/
def replied (s : State) : Except Fault Value → State
  | .ok v => { s with stack := s.stack.modifyTop (·.returning v) }
  | .error _ => s

/-- The state within an activation that began in `s`. -/
def within (s : State) (frame : Frame) : State :=
  { s with stack := { s.stack with calls := frame :: s.stack.calls } }

/-- When a frame without arrays is popped, nothing is left of the activation. -/
theorem Unaffected.leave {s u : State} {inner frame : Frame}
    (same : (s.within inner).Unaffected u) (plain : inner.arrays = [])
    (popped : u.stack.calls = frame :: s.stack.calls) :
    frame.ret = inner.ret ∧ s.Unaffected (Action.afterPop u frame s.stack.calls) := by
  have calls := same.stack.calls
  rw [popped] at calls
  obtain ⟨top, rest⟩ := List.forall₂_cons.mp calls
  have left : s.Unaffected (Action.afterPop (s.within inner) inner s.stack.calls) :=
    { State.Unaffected.refl s with
      heap := by
        unfold Action.afterPop
        rw [plain]
        exact Heap.removeAll_nil s.heap
      journal := by simp }
  have popped := State.Agrees.afterPop same Frame.congruence_sameButRecords top rest
  exact ⟨top.ret, left.trans popped⟩

end State

namespace Config

variable {config : Config} {s s' s'' t : State}

/-! ### Ends in states that are not told apart -/

/-- From `s` the request ends with `result`, in `s'` up to what is recorded and reported. -/
def EndsLike (config : Config) (request : Request) (s : State)
    (result : Except Fault request.Answer) (s' : State) : Prop :=
  ∃ t, config.Ends request s result t ∧ s'.Unaffected t

/-- From `s` the script ends with `result`, in `s'` up to what is recorded and reported. -/
def FinishesLike (config : Config) (script : Script α) (s : State) (result : Except Fault α)
    (s' : State) : Prop :=
  ∃ t, config.Finishes script s result t ∧ s'.Unaffected t

/-- Requests end alike in states that are not affected. -/
theorem EndsLike.of_unaffected {request : Request} {result : Except Fault request.Answer}
    (ended : config.EndsLike request s result s') (same : s.Unaffected t) :
    config.EndsLike request t result s' := by
  obtain ⟨u, ⟨levels, returned⟩, unaffected⟩ := ended
  obtain ⟨v, returned', same'⟩ :=
    follows_carryOut Frame.congruence_sameButRecords config levels request same returned
  exact ⟨v, ⟨levels, returned'⟩, unaffected.trans same'⟩

namespace FinishesLike

theorem of_unaffected {script : Script α} {result : Except Fault α}
    (finished : config.FinishesLike script s result s') (same : s.Unaffected t) :
    config.FinishesLike script t result s' := by
  obtain ⟨u, ⟨levels, returned⟩, unaffected⟩ := finished
  have follows : Follows Frame.SameButRecords (fun _ => false)
      (script.run (config.carryOut levels)) (script.run (config.carryOut levels)) :=
    script.asks_true.related (R := Follows Frame.SameButRecords fun _ => false) .pure .bind
      fun request _ => follows_carryOut Frame.congruence_sameButRecords config levels request
  obtain ⟨v, returned', same'⟩ := follows same returned
  exact ⟨v, ⟨levels, returned'⟩, unaffected.trans same'⟩

protected theorem pure (a : α) (s : State) : config.FinishesLike (pure a) s (.ok a) s :=
  ⟨s, finishes_pure a s, .refl s⟩

protected theorem bind {script : Script α} {next : α → Script β} {a : α} {result : Except Fault β}
    (first : config.FinishesLike script s (.ok a) s')
    (rest : config.FinishesLike (next a) s' result s'') :
    config.FinishesLike (script >>= next) s result s'' := by
  obtain ⟨t, first, same⟩ := first
  obtain ⟨u, rest, same'⟩ := rest.of_unaffected same
  exact ⟨u, first.bind rest, same'⟩

end FinishesLike

section Requests

variable {request : Request} {next : request.Answer → Script β} {result : Except Fault β}

theorem EndsLike.then {a : request.Answer} (first : config.EndsLike request s (.ok a) s')
    (rest : config.FinishesLike (next a) s' result s'') :
    config.FinishesLike (.ask request next) s result s'' := by
  obtain ⟨t, first, same⟩ := first
  obtain ⟨u, rest, same'⟩ := rest.of_unaffected same
  exact ⟨u, first.then rest, same'⟩

theorem EndsLike.fails {fault : Fault} (failed : config.EndsLike request s (.error fault) s') :
    config.FinishesLike (.ask request next) s (.error fault) s' := by
  obtain ⟨t, failed, same⟩ := failed
  exact ⟨t, failed.fails, same⟩

/-- What a script asks for in the end is its end. -/
theorem EndsLike.finishes {result : Except Fault request.Answer}
    (ended : config.EndsLike request s result s') :
    config.FinishesLike (.request request) s result s' := by
  obtain ⟨t, ended, same⟩ := ended
  exact ⟨t, finishes_request.mpr ended, same⟩

/-- What is reported makes no difference. -/
theorem endsLike_note (event : Event) (s : State) :
    config.EndsLike (.operate (.note event)) s (.ok ()) s :=
  ⟨_, ends_operate rfl, State.Agrees.emit_right (State.Unaffected.refl s) rfl⟩

end Requests

/-! ### Expressions -/

theorem Yields.then {id : ExprId} {v : Value} {next : Value → Script β} {result : Except Fault β}
    (first : config.Yields id s v) (rest : config.FinishesLike (next v) s result s') :
    config.FinishesLike (.ask (.evaluate id) next) s result s' :=
  EndsLike.then first rest

section Expressions

variable {id left right : ExprId} {type : TypeId} {result : Except Fault Value} {v w : Value}
  {callee : FuncId} {args : List ExprId} {values : List Value}

theorem endsLike_evaluate {expr : Expr} (found : config.program.expr? id = some expr)
    (finished : config.FinishesLike (config.expressionScript id expr) s result s') :
    config.EndsLike (.evaluate id) s result s' := by
  obtain ⟨t, finished, same⟩ := finished
  cases result with
  | ok v => exact ⟨_, evaluates_ok found finished, same.record id v⟩
  | error fault => exact ⟨t, evaluates_error found finished, same⟩

/-- An operator goes wrong if its second operand does. -/
theorem EndsLike.binary_error {op : BinaryOp} {fault : Fault}
    (found : config.program.expr? id = some ⟨.binary op left right, type⟩)
    (supported : op.supported = true) (computes : op.assigns = false)
    (first : config.Yields left s v)
    (second : config.EndsLike (.evaluate right) s (.error fault) s) :
    config.EndsLike (.evaluate id) s (.error fault) s := by
  obtain ⟨t, first, same⟩ := first
  obtain ⟨u, second, same'⟩ := second.of_unaffected same
  exact ⟨u, first.binary_error found supported computes second, same'⟩

/-- Arguments without effects are passed on. -/
theorem finishesLike_args (yields : List.Forall₂ (config.Yields · s) args values) :
    config.FinishesLike (argsScript args) s (.ok values) s := by
  induction yields with
  | nil => exact .pure [] s
  | cons first _ ih =>
    exact first.then (ih.bind (.pure _ s))

/-- A call expression is the call with the values of its arguments, if that is no primitive. -/
theorem EndsLike.call (found : config.program.expr? id = some ⟨.call callee args, type⟩)
    (ordinary : config.setup.primitive? callee = none)
    (yields : List.Forall₂ (config.Yields · s) args values)
    (invoked : config.EndsLike (.invoke callee values type) s result s') :
    config.EndsLike (.evaluate id) s result s' := by
  have dispatched : config.FinishesLike (config.dispatchScript id callee values type) s result
      s' := by
    unfold dispatchScript
    rw [ordinary]
    exact (endsLike_note _ s).then invoked.finishes
  exact endsLike_evaluate found
    ((endsLike_note _ s).then ((finishesLike_args yields).bind dispatched))

end Expressions

/-! ### Statements -/

section Statements

variable {id stmt : StmtId} {v : Value} {result : Except Fault Value}

theorem endsLike_execute {form : Stmt} {result : Except Fault Completion}
    (found : config.program.stmt? id = some form)
    (finished : config.FinishesLike (config.statementScript form) s result s') :
    config.EndsLike (.execute id) s result s' := by
  have looked : config.Ends (.operate (.stmt id)) s (.ok form) s := by
    show ∃ _, (Action.ofOption (config.program.stmt? id)).Returns s (.ok form) s
    rw [found]
    exact ⟨0, rfl⟩
  obtain ⟨t, finished, same⟩ :
      config.FinishesLike (.ask (.operate (.note (.exec id))) fun _ => config.statementScript form)
        s result s' := (endsLike_note (.exec id) s).then finished
  exact ⟨t, ends_execute_iff.mpr (looked.then finished), same⟩

/-- The statement returns a value or goes wrong, and has no other effect. -/
def Replies (config : Config) (stmt : StmtId) (s : State) (result : Except Fault Value) : Prop :=
  config.EndsLike (.execute stmt) s (result.map .returned) (s.replied result)

/-- The statement ends without any effect. -/
def Passes (config : Config) (stmt : StmtId) (s : State) : Prop :=
  config.EndsLike (.execute stmt) s (.ok .completed) s

/-- A `return` replies with what its expression evaluates to. -/
theorem Replies.return {expr : ExprId}
    (found : config.program.stmt? id = some (.return (some expr)))
    (ended : config.EndsLike (.evaluate expr) s result s) : config.Replies id s result := by
  apply endsLike_execute found
  cases result with
  | ok v =>
    have returned : config.EndsLike (.operate (.returning v)) s (.ok ()) (s.replied (.ok v)) :=
      ⟨_, ends_operate rfl, .refl _⟩
    exact EndsLike.then ended (returned.then (.pure _ _))
  | error fault => exact EndsLike.fails ended

section Branches

variable {cond : ExprId} {yes : StmtId} {no : Option StmtId}

/-- Where the condition holds, a branch replies as its statement does. -/
theorem Replies.branch (found : config.program.stmt? id = some (.branch cond yes no))
    (yields : config.Yields cond s v) (holds : v.isTrue = true)
    (replies : config.Replies yes s result) : config.Replies id s result := by
  apply endsLike_execute found
  apply yields.then
  show config.FinishesLike (if v.isTrue then .execute yes else _) s _ _
  rw [if_pos holds]
  exact EndsLike.finishes replies

/-- Where the condition does not hold, a branch without alternative is passed. -/
theorem passes_branch (found : config.program.stmt? id = some (.branch cond yes none))
    (yields : config.Yields cond s v) (fails : v.isTrue = false) : config.Passes id s := by
  apply endsLike_execute found
  apply yields.then
  show config.FinishesLike (if v.isTrue then .execute yes else pure .completed) s _ _
  rw [fails]
  exact .pure _ s

end Branches

/-- A compound statement replies as the first of its statements that is not passed. -/
theorem Replies.compound {front rest : List StmtId}
    (found : config.program.stmt? id = some (.compound (front ++ stmt :: rest)))
    (passed : ∀ first ∈ front, config.Passes first s) (replies : config.Replies stmt s result) :
    config.Replies id s result := by
  apply endsLike_execute found
  show config.FinishesLike (compoundScript (front ++ stmt :: rest)) s _ _
  clear found
  induction front with
  | nil =>
    cases result with
    | ok v =>
      have executed : config.EndsLike (.execute stmt) s (.ok (.returned v)) _ := replies
      exact executed.then (.pure _ _)
    | error fault =>
      have failed : config.EndsLike (.execute stmt) s (.error fault) _ := replies
      exact failed.fails
  | cons first front ih =>
    have others := ih fun stmt member => passed stmt (List.mem_cons_of_mem _ member)
    have executed : config.EndsLike (.execute first) s (.ok .completed) s :=
      passed first List.mem_cons_self
    exact executed.then others

end Statements

/-! ### Activations -/

/-- Binding parameters makes no arrays. -/
theorem arrays_bound (params : List VarId) (values : List Value) (frame : Frame) :
    (config.bound params values frame).arrays = frame.arrays := by
  unfold bound
  induction params.zip values generalizing frame with
  | nil => rfl
  | cons pair pairs ih => exact ih _

section Calls

variable {callee : FuncId} {values : List Value} {type : TypeId} {decl : FuncDecl} {body : StmtId}
  {result : Except Fault Value}

variable (type) in
/-- A call whose body replies has the result of the body, read at the type of the call, and no other
effect. -/
theorem Replies.invoke
    (found : config.program.func? (config.setup.implementation config.program callee) = some decl)
    (code : decl.body = some body) (arity : values.length = decl.params.length)
    (declared : ∀ var ∈ decl.params, ∃ decl, config.program.var? var = some decl)
    (permitted : config.permission s.stack.depth = .ok ())
    (replies : config.Replies body (s.within (config.bound decl.params values {})) result) :
    config.EndsLike (.invoke callee values type) s
      (result.map fun v => config.types.view type v.cell) s := by
  have entered := finishes_bindParamsScript declared values s.entered
  have same : (s.within (config.bound decl.params values {})).Unaffected
      { s.entered with stack := s.entered.stack.modifyTop (config.bound decl.params values) } :=
    { State.Unaffected.refl (s.within (config.bound decl.params values {})) with
      journal := by simp }
  obtain ⟨u, executed, same'⟩ := EndsLike.of_unaffected replies same
  cases result with
  | ok v =>
    obtain ⟨frame, popped, ended⟩ := ends_invoke_permitted type found code arity permitted
      (entered.bind (executed.then (finishes_pure () u)))
    have inside : (s.within ((config.bound decl.params values {}).returning v)).Unaffected u :=
      same'
    obtain ⟨ret, left⟩ := inside.leave (arrays_bound _ _ _) popped
    have returned : frame.ret = v := ret
    rw [returned] at ended
    exact ⟨_, ended, left⟩
  | error fault =>
    obtain ⟨frame, popped, ended⟩ := ends_invoke_permitted type found code arity permitted
      (entered.bind executed.fails)
    have inside : (s.within (config.bound decl.params values {})).Unaffected u := same'
    obtain ⟨-, left⟩ := inside.leave (arrays_bound _ _ _) popped
    exact ⟨_, ended, left⟩

end Calls

/-- However a function is called in the state with arguments of these cells, directly or by a call
expression, the call ends with the result and has no other effect. -/
structure CallsEnd (config : Config) (callee : FuncId) (cells : List Cell) (s : State)
    (result : Except Fault Value) : Prop where
  invoked : ∀ {values}, values.map Value.cell = cells →
    config.EndsLike (.invoke callee values (config.program.resultType callee)) s result s
  called : ∀ {id args type values}, config.program.expr? id = some ⟨.call callee args, type⟩ →
    List.Forall₂ (config.Yields · s) args values → values.map Value.cell = cells →
    config.EndsLike (.evaluate id) s result s

/-- Call expressions end as calls do, at the type of the function. -/
theorem CallsEnd.of_invoked {callee : FuncId} {cells : List Cell} {result : Except Fault Value}
    (fit : config.program.TypesFit) (ordinary : config.setup.primitive? callee = none)
    (invoked : ∀ {values}, values.map Value.cell = cells →
      config.EndsLike (.invoke callee values (config.program.resultType callee)) s result s) :
    config.CallsEnd callee cells s result where
  invoked := invoked
  called found yields same := by
    obtain rfl := fit.call found
    exact EndsLike.call found ordinary yields (invoked same)

end Config

end CellC
