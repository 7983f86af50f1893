import CellC.Semantics.Call

/-!
# Expressions

The value of an expression of any form in terms of the meaning of its parts: `eval` evaluates an
expression and `invoke` calls a function that is no primitive.

## Main definitions

* `Config.expression`: the value of an expression of any form
* `Config.evaluation`: the same with the value recorded
-/

namespace CellC

namespace Config

variable (config : Config)

/-- The value of the expression `id`, whose form and type are given by `expr`. The operand of
`sizeof` is not evaluated, and every size is that of a cell; a conversion passes its operand on. -/
@[inline] def expression (eval : ExprId → Action Value)
    (invoke : FuncId → List Value → TypeId → Action Value) (id : ExprId) (expr : Expr) :
    Action Value :=
  match expr.form with
  | .ident var => config.varValue var
  | .intLit n => pure (.int n)
  | .charLit byte => pure (.char byte.toInt8)
  | .strLit _ => .fail (.unsupportedExpr expr.form.label)
  | .paren inner => eval inner
  | .sizeOf _ => pure (.int 8)
  | .unary op operand => config.unary eval op operand expr.type
  | .binary op left right => config.binary eval op left right expr.type
  | .index base index => do config.loadAt (← config.subscript eval base index) expr.type
  | .call callee args => config.call eval invoke id callee args expr.type
  | .cast _ _ operand => eval operand

/-- The value of the expression with the given number, which is also recorded in the innermost
activation. -/
@[inline] def evaluation (eval : ExprId → Action Value)
    (invoke : FuncId → List Value → TypeId → Action Value) (id : ExprId) : Action Value := do
  let expr ← Action.ofOption (config.program.expr? id)
  let value ← config.expression eval invoke id expr
  Action.record id value
  pure value

end Config

end CellC
