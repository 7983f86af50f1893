/-!
# Identities of declarations and tree nodes

Expressions, statements, variables and functions of a program are stored in four numbered lists.
A node refers to another by its number, so two declarations that look alike stay apart.
-/

namespace CellC

/-- The number of an expression. -/
structure ExprId where
  /-- The position in the list of expressions. -/
  index : Nat
deriving DecidableEq, Inhabited

/-- The number of a statement. -/
structure StmtId where
  /-- The position in the list of statements. -/
  index : Nat
deriving DecidableEq, Inhabited

/-- The number of a variable; parameters are variables too. -/
structure VarId where
  /-- The position in the list of variables. -/
  index : Nat
deriving DecidableEq, Inhabited

/-- The number of a function. -/
structure FuncId where
  /-- The position in the list of functions. -/
  index : Nat
deriving DecidableEq, Inhabited

/-- How diagnostics write the number of an expression. -/
def ExprId.text (id : ExprId) : String := s!"ExprId({id.index})"

/-- How diagnostics write the number of a statement. -/
def StmtId.text (id : StmtId) : String := s!"StmtId({id.index})"

/-- How diagnostics write the number of a variable. -/
def VarId.text (id : VarId) : String := s!"VarId({id.index})"

/-- How diagnostics write the number of a function. -/
def FuncId.text (id : FuncId) : String := s!"FuncId({id.index})"

end CellC
