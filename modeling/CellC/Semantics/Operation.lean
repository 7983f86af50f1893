import CellC.Semantics.Access

/-!
# Operators and subscripts

The values of operators, assignments and subscripts in terms of the values of their operands. Each
rule takes the evaluation of the operands as an argument, `eval`, and says in which order they are
evaluated, what is done to the machine, and at which type the outcome is read.

## Main definitions

* `Config.unary`, `Config.binary`, `Config.assign`: operators
* `Config.subscript`: the address of an array element
* `Config.args`: several expressions from left to right
-/

namespace CellC

namespace Config

variable (config : Config)

/-- The two operands of an operator after scaling: in a sum or difference of a pointer or array and
anything else, the other operand counts elements. Only a sum may have the pointer on the right. -/
def scaled (op : BinaryOp) (left right : TypeId) (a b : Cell) : Cell × Cell :=
  match op, config.types.element? left, config.types.element? right with
  | .add, some elem, none | .sub, some elem, none => (a, b * config.types.stride elem)
  | .add, none, some elem => (a * config.types.stride elem, b)
  | _, _, _ => (a, b)

variable (eval : ExprId → Action Value)

/-- The address of an element: that of the array plus as many elements as the index says. -/
@[inline] def subscript (base index : ExprId) : Action Address := do
  let start ← eval base
  let position ← eval index
  pure (start.address.offset (position.cell * config.elementStride (config.program.exprType base)))

/-- The value of a unary operator's application, which has type `type`. -/
@[inline] def unary (op : UnaryOp) (operand : ExprId) (type : TypeId) : Action Value :=
  match op with
  | .addrOf => .fail (.unsupportedOp op.symbol)
  | .deref => do config.loadAt (← eval operand).address type
  | .neg | .plus | .bitNot | .not => do
    let cell ← Action.ofExcept (op.apply (← eval operand).cell)
    pure (config.types.view type cell)

/-- The value of an assignment: the assigned value as the target's type sees it. The value is
evaluated before the parts of the target. -/
@[inline] def assign (target value : ExprId) : Action Value := do
  let value ← eval value
  let target := config.program.unparen target
  let node ← Action.ofOption (config.program.expr? target)
  let stored := config.types.view node.type value.cell
  -- The parts of the target are evaluated only now, after the value.
  match node.form with
  | .ident var => config.assignVar var stored
  | .index base index => do
    config.storeAt (← config.subscript eval base index) node.type stored
  | .unary .deref operand => do
    config.storeAt (← eval operand).address node.type stored
  | form => .fail (.notAssignable form.label)
  -- What is left under the parentheses counts as evaluated, too.
  Action.record target stored
  pure stored

/-- The value of a binary operator's application, which has type `type`. An operator that is not
implemented fails before its operands are evaluated. -/
@[inline] def binary (op : BinaryOp) (left right : ExprId) (type : TypeId) : Action Value :=
  if !op.supported then .fail (.unsupportedOp op.symbol)
  else if op.assigns then config.assign eval left right
  else do
    let x ← eval left
    let y ← eval right
    -- Static types alone decide about scaling, whatever the operands turned out to be.
    let (a, b) := config.scaled op (config.program.exprType left) (config.program.exprType right)
      x.cell y.cell
    let cell ← Action.ofExcept (op.apply a b)
    pure (config.types.view type cell)

/-- The values of arguments, from left to right. -/
@[specialize] def args : List ExprId → Action (List Value)
  | [] => pure []
  | expr :: exprs => do
    let value ← eval expr
    let values ← args exprs
    pure (value :: values)

end Config

end CellC
