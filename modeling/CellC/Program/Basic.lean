import CellC.Cell.Operator
import CellC.Program.Ident
import CellC.Program.Names
import CellC.Type.Table

/-!
# Programs

A program is a unit of resolved declarations: expressions, statements, variables and functions in
four numbered lists, its names and types, and its top-level declarations in the order in which they
were written. Every expression carries its static type, and every identifier refers to the
declaration it denotes.

## Main definitions

* `ExprForm`, `Expr`: expressions, and expressions with their types
* `Stmt`: statements
* `VarDecl`, `FuncDecl`, `TopLevel`: declarations
* `Program`: declarations with all their parts, which never change while the program runs
* `Program.unparen`: the expression under any number of parentheses
-/

namespace CellC

/-! ### Expressions and statements -/

/-- Whether a conversion was written down or supplied by the type rules. -/
inductive Conversion
  | implicit
  | explicit
deriving DecidableEq

/-- What `sizeof` is applied to. -/
inductive SizeOfOperand
  | type (type : TypeId)
  | expr (operand : ExprId)
deriving DecidableEq

/-- The form of an expression. -/
inductive ExprForm
  | ident (var : VarId)
  | intLit (n : Cell)
  | charLit (byte : UInt8)
  | strLit (name : Name)
  | paren (inner : ExprId)
  | sizeOf (operand : SizeOfOperand)
  | unary (op : UnaryOp) (operand : ExprId)
  | binary (op : BinaryOp) (left right : ExprId)
  | index (base index : ExprId)
  | call (callee : FuncId) (args : List ExprId)
  | cast (conversion : Conversion) (type : TypeId) (operand : ExprId)
deriving DecidableEq

/-- What diagnostics call a form of expression. -/
def ExprForm.label : ExprForm → String
  | ident _ => "identifier"
  | intLit _ => "integer literal"
  | charLit _ => "character literal"
  | strLit _ => "string literal"
  | paren _ => "parenthesized expression"
  | sizeOf _ => "sizeof"
  | unary _ _ => "unary operator"
  | binary _ _ _ => "binary operator"
  | index _ _ => "array subscript"
  | call _ _ => "call"
  | cast _ _ _ => "cast"

/-- An expression with its static type. -/
structure Expr where
  /-- The form of the expression. -/
  form : ExprForm
  /-- The static type of the expression. -/
  type : TypeId
deriving DecidableEq

/-- A statement. -/
inductive Stmt
  | decl (vars : List VarId)
  | expr (expr : ExprId)
  | branch (cond : ExprId) (yes : StmtId) (no : Option StmtId)
  | while (cond : ExprId) (body : StmtId)
  | for (start : Option StmtId) (cond step : Option ExprId) (body : StmtId)
  | return (value : Option ExprId)
  | compound (stmts : List StmtId)
  | break
  | continue
deriving DecidableEq

/-- What diagnostics call a form of statement. -/
def Stmt.label : Stmt → String
  | decl _ => "declaration"
  | expr _ => "expression statement"
  | branch _ _ _ => "if"
  | .while _ _ => "while"
  | .for _ _ _ _ => "for"
  | .return _ => "return"
  | compound _ => "compound statement"
  | .break => "break"
  | .continue => "continue"

/-! ### Declarations -/

/-- The declaration of a variable or parameter. -/
structure VarDecl where
  /-- The name of the variable. -/
  name : Name
  /-- The declared type. -/
  type : TypeId
  /-- The initial value, if one is written. -/
  init : Option ExprId
deriving DecidableEq

/-- The declaration of a function. -/
structure FuncDecl where
  /-- The name of the function. -/
  name : Name
  /-- The parameters in order. -/
  params : List VarId
  /-- The type of the result. -/
  ret : TypeId
  /-- The body; a prototype has none. -/
  body : Option StmtId
deriving DecidableEq

/-- A top-level declaration. -/
inductive TopLevel
  | function (func : FuncId)
  | variable (var : VarId)
deriving DecidableEq

/-- How diagnostics write a top-level declaration. -/
def TopLevel.text : TopLevel → String
  | function func => func.text
  | .variable var => var.text

/-! ### Programs -/

/-- Declarations with all their parts. -/
structure Program where
  /-- The spellings of names. -/
  names : NameTable := {}
  /-- The types in use. -/
  types : TypeTable := {}
  /-- The expressions by number. -/
  exprs : Array Expr := #[]
  /-- The statements by number. -/
  stmts : Array Stmt := #[]
  /-- The variables by number. -/
  vars : Array VarDecl := #[]
  /-- The functions by number. -/
  funcs : Array FuncDecl := #[]
  /-- The top-level declarations in the order in which they were written. -/
  topLevel : Array TopLevel := #[]
deriving DecidableEq

namespace Program

/-- The expression with the given number. -/
def expr? (program : Program) (id : ExprId) : Option Expr := program.exprs[id.index]?

/-- The statement with the given number. -/
def stmt? (program : Program) (id : StmtId) : Option Stmt := program.stmts[id.index]?

/-- The variable with the given number. -/
def var? (program : Program) (id : VarId) : Option VarDecl := program.vars[id.index]?

/-- The function with the given number. -/
def func? (program : Program) (id : FuncId) : Option FuncDecl := program.funcs[id.index]?

/-- The static type of an expression; a number that refers to nothing has type `int`. -/
def exprType (program : Program) (id : ExprId) : TypeId :=
  ((program.expr? id).map Expr.type).getD .int

/-- The declared type of a variable; a number that refers to nothing has type `int`. -/
def varType (program : Program) (id : VarId) : TypeId :=
  ((program.var? id).map VarDecl.type).getD .int

/-- The type of a function's result; a number that refers to nothing has result type `int`. -/
def resultType (program : Program) (id : FuncId) : TypeId :=
  ((program.func? id).map FuncDecl.ret).getD .int

/-- The spelling of a variable's name. -/
def varName (program : Program) (id : VarId) : String :=
  ((program.var? id).map (program.names.spelling ·.name)).getD NameTable.unknown

/-- The spelling of a function's name. -/
def funcName (program : Program) (id : FuncId) : String :=
  ((program.func? id).map (program.names.spelling ·.name)).getD NameTable.unknown

/-- The expression under at most `layers` parentheses. -/
def unparenWithin (program : Program) : Nat → ExprId → ExprId
  | 0, id => id
  | layers + 1, id =>
    match (program.expr? id).map Expr.form with
    | some (.paren inner) => program.unparenWithin layers inner
    | _ => id

/-- The expression under all parentheses. No expression contains itself, so there are no more
parentheses around it than expressions in the program. -/
def unparen (program : Program) (id : ExprId) : ExprId :=
  program.unparenWithin program.exprs.size id

theorem exprType_of_expr? {program : Program} {id : ExprId} {expr : Expr}
    (h : program.expr? id = some expr) : program.exprType id = expr.type := by
  simp [exprType, h]

theorem varType_of_var? {program : Program} {id : VarId} {decl : VarDecl}
    (h : program.var? id = some decl) : program.varType id = decl.type := by
  simp [varType, h]

theorem resultType_of_func? {program : Program} {id : FuncId} {decl : FuncDecl}
    (h : program.func? id = some decl) : program.resultType id = decl.ret := by
  simp [resultType, h]

/-- An expression without parentheses around it is left alone. -/
theorem unparen_of_not_paren {program : Program} {id : ExprId}
    (h : ∀ inner, (program.expr? id).map Expr.form ≠ some (.paren inner)) :
    program.unparen id = id := by
  unfold unparen
  cases program.exprs.size with
  | zero => rfl
  | succ layers =>
    unfold unparenWithin
    split
    · next inner hinner => exact absurd hinner (h inner)
    · rfl

end Program

end CellC
