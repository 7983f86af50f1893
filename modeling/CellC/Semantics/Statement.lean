import CellC.Semantics.Expression

/-!
# Statements

The execution of a statement of any form in terms of the meaning of its parts: `eval` evaluates an
expression, `exec` executes a statement, and `loop` runs the iterations of a loop. A `return` ends
every statement around it within the same activation.

## Main definitions

* `Config.declare`: a variable comes to life
* `Config.compound`, `Config.branch`, `Config.iteration`, `Config.returnWith`: single forms
* `Config.statement`: a statement of any form
* `Config.execution`: the same with an entry in the journal
-/

namespace CellC

namespace Config

variable (config : Config) (eval : ExprId → Action Value) (exec : StmtId → Action Completion)

/-- The value with which a declared variable starts: a new array that belongs to the innermost
activation, or its initial value, or zero. -/
@[inline] def startValue (decl : VarDecl) : Action Value := do
  -- The initial value of an array is passed over.
  if config.types.isArray decl.type then
    let base ← Action.allocate (config.types.stride decl.type) .array
    Action.modifyTop (·.adopt base)
    pure (.array base)
  else
    match decl.init with
    | some init => return config.types.view decl.type (← eval init).cell
    | none => pure (config.types.view decl.type 0)

/-- Brings a variable to life in the innermost activation. -/
@[inline] def declare (var : VarId) : Action Unit := do
  let decl ← Action.ofOption (config.program.var? var)
  let value ← config.startValue eval decl
  Action.emit (.declare var value)
  Action.bind var value

/-- Brings variables to life one after the other. -/
@[specialize] def declareAll : List VarId → Action Unit
  | [] => pure ()
  | var :: vars => do
    config.declare eval var
    declareAll vars

/-- Executes statements in order until one returns. -/
@[specialize] def compound : List StmtId → Action Completion
  | [] => pure .completed
  | stmt :: stmts => do
    match ← exec stmt with
    | .returned value => pure (.returned value)
    | .completed => compound stmts

/-- Executes one of two statements. -/
@[inline] def branch (cond : ExprId) (yes : StmtId) (no : Option StmtId) : Action Completion := do
  if (← eval cond).isTrue then exec yes
  else
    match no with
    | some stmt => exec stmt
    | none => pure .completed

/-- Sets the value to return, which is zero unless an expression gives it. -/
@[inline] def returnWith (value : Option ExprId) : Action Completion := do
  let value ←
    match value with
    | some expr => eval expr
    | none => pure .zero
  -- A call takes the value from the frame; the completion only ends the statements around.
  Action.modifyTop (·.returning value)
  pure (.returned value)

variable (loop : ExprId → StmtId → Option ExprId → Action Completion)

/-- The iterations of a loop from a test of its condition on: while the condition holds, the body
and then the step, if the loop has one. -/
@[inline] def iteration (cond : ExprId) (body : StmtId) (step : Option ExprId) :
    Action Completion := do
  if (← eval cond).isTrue then
    match ← exec body with
    | .returned value => pure (.returned value)
    | .completed =>
      match step with
      | some expr => do
        discard <| eval expr
        loop cond body step
      | none => loop cond body step
  else pure .completed

/-- The iterations of a `for` statement, unless its start returned. -/
@[inline] def afterStart (cond step : Option ExprId) (body : StmtId) :
    Completion → Action Completion
  | .returned value => pure (.returned value)
  | .completed =>
    match cond with
    | some cond => loop cond body step
    | none => .fail .forWithoutCondition

/-- The execution of a `for` statement: its start and then its iterations. -/
@[inline] def forLoop (start : Option StmtId) (cond step : Option ExprId) (body : StmtId) :
    Action Completion := do
  -- The start is executed even if the missing condition is a fault afterwards.
  let started ←
    match start with
    | some stmt => exec stmt
    | none => pure .completed
  afterStart loop cond step body started

/-- The execution of a statement. -/
@[inline] def statement (stmt : Stmt) : Action Completion :=
  match stmt with
  | .decl vars => do
    config.declareAll eval vars
    pure .completed
  | .expr expr => do
    discard <| eval expr
    pure .completed
  | .branch cond yes no => branch eval exec cond yes no
  | .while cond body => loop cond body none
  | .for start cond step body => forLoop exec loop start cond step body
  | .return value => returnWith eval value
  | .compound stmts => compound exec stmts
  | .break | .continue => .fail (.unsupportedStmt stmt.label)

/-- The execution of the statement with the given number. -/
@[inline] def execution (id : StmtId) : Action Completion := do
  let stmt ← Action.ofOption (config.program.stmt? id)
  Action.emit (.exec id)
  config.statement eval exec loop stmt

end Config

end CellC
