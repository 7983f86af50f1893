import CellC.Program.Basic

/-!
# Building programs

A program is built by appending one declaration, expression or statement at a time. Each addition
hands out the number of what it added, numbers count up from zero in each list, and what was added
never changes afterwards, except that a function receives its parameters and its body later. An
expression is given the static type that a type checker would give it, which may add types to the
table.

## Main definitions

* `Builder`: a computation that extends a program
* `Builder.function`, `Builder.param`, `Builder.body`, `Builder.var`, `Builder.global`: declarations
* `Builder.staticType`: the static type of a form of expression
* `Builder.expr`, `Builder.stmt`: expressions with their types, and statements
* `Program.build`: the program that a builder makes of the empty one
-/

namespace CellC

/-- The type at which an operand takes part in arithmetic: a character counts as `int`. -/
def TypeId.promoted (type : TypeId) : TypeId := if type = .char then .int else type

/-- A computation that extends a program. -/
abbrev Builder := StateM Program

namespace Builder

/-! ### Types and names -/

/-- The number of the type with the given outermost layer. -/
def type (layer : TypeLayer) : Builder TypeId :=
  modifyGet fun program =>
    let (id, types) := program.types.intern layer
    (id, { program with types })

/-- The name with the given spelling. -/
def name (spelling : String) : Builder Name :=
  modifyGet fun program =>
    let (name, names) := program.names.intern spelling
    (name, { program with names })

/-! ### Declarations -/

/-- Appends a top-level declaration. -/
def topLevel (decl : TopLevel) : Builder Unit :=
  modify fun program => { program with topLevel := program.topLevel.push decl }

/-- Declares a variable, which comes to life when a declaration statement names it. -/
def var (spelling : String) (type : TypeId) (init : Option ExprId) : Builder VarId := do
  let name ← name spelling
  modifyGet fun program =>
    (⟨program.vars.size⟩, { program with vars := program.vars.push { name, type, init } })

/-- Declares a file-scope variable. -/
def global (spelling : String) (type : TypeId) (init : Option ExprId) : Builder VarId := do
  let id ← var spelling type init
  topLevel (.variable id)
  pure id

/-- Declares a function without parameters or body; both can be supplied later, so that a body may
call the function. -/
def function (spelling : String) (ret : TypeId) : Builder FuncId := do
  let name ← name spelling
  let id ← modifyGet fun program =>
    (⟨program.funcs.size⟩,
      { program with funcs := program.funcs.push { name, params := [], ret, body := none } })
  topLevel (.function id)
  pure id

/-- Changes the declaration of a function. -/
def modifyFunc (func : FuncId) (f : FuncDecl → FuncDecl) : Builder Unit :=
  modify fun program => { program with funcs := program.funcs.modify func.index f }

/-- Appends a parameter to a function. -/
def param (func : FuncId) (spelling : String) (type : TypeId) : Builder VarId := do
  let id ← var spelling type none
  modifyFunc func fun decl => { decl with params := decl.params ++ [id] }
  pure id

/-- Appends parameters named `arg0`, `arg1` and so on, counted from `start`. -/
def anonymousParams (func : FuncId) (start : Nat) : List TypeId → Builder Unit
  | [] => pure ()
  | type :: types => do
    discard <| param func s!"arg{start}" type
    anonymousParams func (start + 1) types

/-- Declares a function without a body and with unnamed parameters, as the runtime primitives are
declared. -/
def prototype (spelling : String) (params : List TypeId) (ret : TypeId) : Builder FuncId := do
  let id ← function spelling ret
  anonymousParams id 0 params
  pure id

/-- Gives a function its body. -/
def body (func : FuncId) (body : StmtId) : Builder Unit :=
  modifyFunc func fun decl => { decl with body := some body }

/-! ### Static types -/

/-- The pointer type that an operand of a type turns into, if it is a pointer or an array. -/
def pointerType? (operand : TypeId) : Builder (Option TypeId) := do
  match (← get).types.layer operand with
  | .pointer _ => pure (some operand)
  | .array elem _ => some <$> type (.pointer elem)
  | .int | .char | .void => pure none

/-- The element type of a pointer or array type, and `int` for any other type. -/
def elementType (operand : TypeId) : Builder TypeId :=
  return ((← get).types.element? operand).getD .int

/-- The type of a unary operator's result. -/
def unaryType (op : UnaryOp) (operand : TypeId) : Builder TypeId :=
  match op with
  | .deref => elementType operand
  | .addrOf => type (.pointer operand)
  | .not => pure .int
  | .neg | .plus | .bitNot => pure operand.promoted

/-- The type of a binary operator's result. Sums and differences with a pointer or array on the left
are pointers, and so are sums with one on the right. -/
def binaryType (op : BinaryOp) (left right : TypeId) : Builder TypeId :=
  match op with
  | .assign => pure left
  | .add => do
    match ← pointerType? left with
    | some pointer => pure pointer
    | none => return (← pointerType? right).getD left.promoted
  | .sub => return (← pointerType? left).getD left.promoted
  | .lt | .gt | .le | .ge | .eq | .ne | .logicalAnd | .logicalOr => pure .int
  | .mul | .div | .rem | .bitAnd | .bitOr => pure left.promoted

/-- The static type of a form of expression, given the types of the parts that were added before. -/
def staticType (form : ExprForm) : Builder TypeId := do
  let program ← get
  match form with
  | .ident var => pure (program.varType var)
  | .intLit _ | .sizeOf _ => pure .int
  | .charLit _ => pure .char
  | .strLit _ => type (.pointer .char)
  | .paren inner => pure (program.exprType inner)
  | .unary op operand => unaryType op (program.exprType operand)
  | .binary op left right => binaryType op (program.exprType left) (program.exprType right)
  | .index base _ => elementType (program.exprType base)
  | .call callee _ => pure (program.resultType callee)
  | .cast _ type _ => pure type

/-! ### Expressions and statements -/

/-- Appends an expression with its static type. -/
def expr (form : ExprForm) : Builder ExprId := do
  let type ← staticType form
  modifyGet fun program =>
    (⟨program.exprs.size⟩, { program with exprs := program.exprs.push { form, type } })

/-- Appends a string literal. -/
def string (text : String) : Builder ExprId := do expr (.strLit (← name text))

/-- Appends a statement. -/
def stmt (stmt : Stmt) : Builder StmtId :=
  modifyGet fun program =>
    (⟨program.stmts.size⟩, { program with stmts := program.stmts.push stmt })

end Builder

/-- What a builder yields and the program that it makes of the empty one. -/
def Program.build {α : Type} (builder : Builder α) : α × Program := builder.run {}

end CellC
