import CellC.Semantics.Operation

/-!
# Calls

The value of a call in terms of the values of its arguments and the execution of a body. A call of a
function whose name is that of a primitive is carried out by the machine; any other call runs a body
in a frame of its own.

## Main definitions

* `Config.primitiveCall`: a call of a primitive
* `Config.activation`: the execution of a body in a frame of its own
* `Config.functionCall`: a call that runs a body
* `Config.call`: a call expression
-/

namespace CellC

/-- How a statement ended. -/
inductive Completion
  /-- The next statement follows. -/
  | completed
  /-- A `return` ran; the value is also in the frame. -/
  | returned (value : Value)
deriving DecidableEq

/-- The line that asks for an integer. -/
def promptLine : String := "Please Input an Integer Value : "

namespace Config

variable (config : Config)

/-- The number of arguments of a call has to be the expected one. -/
def checkArity (name : String) (expected got : Nat) : Action Unit :=
  if got = expected then pure () else .fail (.wrongArity name expected got)

/-- An integer from the input, read at type `type`. Where no integer can be read, zero is taken. -/
def readValue (type : TypeId) : Action Value := do
  match ← Action.readInteger with
  | some n => pure (config.types.view type n)
  | none => do
    Action.emit .inputUnavailable
    pure (config.types.view type 0)

/-- The value of a call of a primitive, which has type `type`. -/
def primitiveCall (primitive : Primitive) (values : List Value) (type : TypeId) : Action Value := do
  checkArity primitive.name primitive.arity values.length
  let argument := values.headD .zero
  match primitive with
  | .read => do
    -- The line asks for an integer even if none will be found.
    if config.prompt then Action.println promptLine
    config.readValue type
  | .print => do
    Action.println argument.cell.text
    pure .zero
  | .allocate => do
    let base ← Action.allocate argument.cell .explicit
    pure (config.types.view type base.toCell)
  | .free => do
    discard <| Action.release argument.address
    pure .zero

/-- Binds parameters to arguments, each at its declared type. -/
def bindParams : List VarId → List Value → Action Unit
  | var :: vars, value :: values => do
    let decl ← Action.ofOption (config.program.var? var)
    Action.bind var (config.types.view decl.type value.cell)
    bindParams vars values
  | _, _ => pure ()

/-- One more call has to be permitted; the file-scope frame does not count as a call. -/
def checkDepth : Action Unit := do
  match config.depthLimit with
  -- The frame of the new call is not there yet, which makes up for the file-scope frame.
  | some limit => if limit < (← get).stack.depth then .fail (.tooDeep limit)
  | none => pure ()

/-- Pops the frame of a body that failed, and fails likewise. Nothing is done about other halts. -/
def unwind {α : Type} : Halt → Action α
  | .fault fault => do
    discard Action.popFrame
    .fail fault
  | halt => throw halt

variable (exec : StmtId → Action Completion)

/-- Runs a body in a new frame, with parameters bound to arguments, and yields the value to return.
The frame is popped also when the body fails. -/
@[inline] def activation (params : List VarId) (values : List Value) (body : StmtId) :
    Action Value := do
  Action.pushFrame
  try
    config.bindParams params values
    -- How the body ended does not matter, as the value to return is in the frame.
    discard <| exec body
  catch halt => unwind halt
  Action.popFrame

/-- The value of a call that runs a body, read at type `type`. -/
@[inline] def functionCall (callee : FuncId) (values : List Value) (type : TypeId) :
    Action Value := do
  -- The declaration that is called may have no body where another one of its name has.
  let func := config.setup.implementation config.program callee
  let decl ← Action.ofOption (config.program.func? func)
  let name := config.program.names.spelling decl.name
  match decl.body with
  | none => .fail (.noBody name)
  | some body => do
    checkArity name decl.params.length values.length
    config.checkDepth
    let ret ← config.activation exec decl.params values body
    pure (config.types.view type ret.cell)

/-- The value of the call `id`, which has type `type`: the arguments are evaluated first. A function
that is no primitive is left to `invoke`. -/
@[inline] def call (eval : ExprId → Action Value)
    (invoke : FuncId → List Value → TypeId → Action Value) (id : ExprId) (callee : FuncId)
    (args : List ExprId) (type : TypeId) : Action Value := do
  Action.emit (.call callee)
  let values ← Config.args eval args
  Action.emit (.dispatch id values)
  -- A primitive stays one even if the program supplies a body for it.
  match config.setup.primitive? callee with
  | some primitive => config.primitiveCall primitive values type
  | none => invoke callee values type

end Config

end CellC
