import CellC.Program.Builder

/-!
# Constructions

A construction is one step of building a program, written down as data: which type, declaration,
expression or statement is added, with the numbers of its parts. A list of constructions determines
a program, and the steps' results are the numbers that they hand out.

## Main definitions

* `Construction`: one step of building a program
* `Construction.run`: carries out a step
* `Program.ofConstructions`: the program that a list of steps builds, with the steps' results
-/

namespace CellC

/-- One step of building a program. -/
inductive Construction
  | type (layer : TypeLayer)
  | function (name : String) (ret : TypeId)
  | prototype (name : String) (params : List TypeId) (ret : TypeId)
  | param (func : FuncId) (name : String) (type : TypeId)
  | body (func : FuncId) (body : StmtId)
  | var (name : String) (type : TypeId) (init : Option ExprId)
  | global (name : String) (type : TypeId) (init : Option ExprId)
  | expr (form : ExprForm)
  | string (text : String)
  | stmt (stmt : Stmt)
deriving DecidableEq

/-- What a step of building a program hands out. -/
inductive Product
  | type (id : TypeId)
  | func (id : FuncId)
  | var (id : VarId)
  | expr (id : ExprId)
  | stmt (id : StmtId)
  | nothing
deriving DecidableEq

/-- Carries out one step of building a program. -/
def Construction.run : Construction → Builder Product
  | .type layer => .type <$> Builder.type layer
  | .function name ret => .func <$> Builder.function name ret
  | .prototype name params ret => .func <$> Builder.prototype name params ret
  | .param f name ty => .var <$> Builder.param f name ty
  | .body f start => do
    Builder.body f start
    pure .nothing
  | .var name ty init => .var <$> Builder.var name ty init
  | .global name ty init => .var <$> Builder.global name ty init
  | .expr form => .expr <$> Builder.expr form
  | .string text => .expr <$> Builder.string text
  | .stmt form => .stmt <$> Builder.stmt form

/-- The results of a list of steps and the program that they build, starting from the empty one. -/
def Program.ofConstructions (steps : List Construction) : List Product × Program :=
  Program.build (steps.mapM Construction.run)

end CellC
