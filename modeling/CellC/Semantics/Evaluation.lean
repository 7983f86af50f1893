import CellC.Semantics.Statement

/-!
# Evaluation and execution

The meaning of whole trees: the rules for single nodes, applied to their own results. A program need
not terminate, so each function takes the number of levels to which the rules may be nested, and
halts where more would be needed.

## Main definitions

* `eval`: the value of an expression, which is also recorded in the innermost activation
* `exec`: the execution of a statement
* `loop`: the iterations of a loop
-/

namespace CellC

mutual

/-- The value of an expression within a number of levels. -/
def eval (config : Config) : Nat → ExprId → Action Value
  | 0, _ => throw .exhausted
  | levels + 1, id =>
    config.evaluation (eval config levels) (config.functionCall (exec config levels)) id

/-- The execution of a statement within a number of levels. -/
def exec (config : Config) : Nat → StmtId → Action Completion
  | 0, _ => throw .exhausted
  | levels + 1, id =>
    config.execution (eval config levels) (exec config levels) (loop config levels) id

/-- The iterations of a loop within a number of levels; each iteration takes one. -/
def loop (config : Config) : Nat → ExprId → StmtId → Option ExprId → Action Completion
  | 0, _, _, _ => throw .exhausted
  | levels + 1, cond, body, step =>
    Config.iteration (eval config levels) (exec config levels) (loop config levels) cond body step

end

@[simp] theorem eval_zero (config : Config) (id : ExprId) :
    eval config 0 id = throw .exhausted := rfl

@[simp] theorem exec_zero (config : Config) (id : StmtId) :
    exec config 0 id = throw .exhausted := rfl

@[simp] theorem loop_zero (config : Config) (cond : ExprId) (body : StmtId)
    (step : Option ExprId) : loop config 0 cond body step = throw .exhausted := rfl

/-- One more level evaluates a node with the rules and leaves its parts to the levels below. -/
theorem eval_succ (config : Config) (levels : Nat) (id : ExprId) :
    eval config (levels + 1) id =
      config.evaluation (eval config levels) (config.functionCall (exec config levels)) id := rfl

/-- One more level executes a node with the rules and leaves its parts to the levels below. -/
theorem exec_succ (config : Config) (levels : Nat) (id : StmtId) :
    exec config (levels + 1) id =
      config.execution (eval config levels) (exec config levels) (loop config levels) id := rfl

/-- One more level is one turn of a loop, and the turns after it are left to the levels below. -/
theorem loop_succ (config : Config) (levels : Nat) (cond : ExprId) (body : StmtId)
    (step : Option ExprId) :
    loop config (levels + 1) cond body step =
      Config.iteration (eval config levels) (exec config levels) (loop config levels)
        cond body step := rfl

end CellC
