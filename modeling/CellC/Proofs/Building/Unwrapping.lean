import CellC.Proofs.Building.Intact
import CellC.Proofs.Typing.Static

/-!
# Programs without parentheses

Every reference to an expression in parentheses can be replaced by one to what is under them, also
below `sizeof` and in initial values. The numbers of nodes stay the same, and so do static types and
what a survey of the top-level declarations finds. The parentheses are still there, but nothing
refers to them any more.

## Main definitions

* `ExprForm.mapExprs`, `Stmt.mapExprs`: nodes that refer to other expressions
* `Program.unwrapped`: the program with references to what is under parentheses
* `Program.parens`: the expressions in parentheses

## Main results

* `Program.Built.parensDescend`: in a built program parentheses are around what was there before
* `Program.setup_unwrapped`: a survey finds the same
-/

namespace CellC

/-! ### Nodes -/

/-- What `sizeof` is applied to, if it refers to another expression. -/
def SizeOfOperand.mapExprs (f : ExprId → ExprId) : SizeOfOperand → SizeOfOperand
  | type id => .type id
  | expr operand => .expr (f operand)

/-- The form that refers to other expressions. -/
def ExprForm.mapExprs (f : ExprId → ExprId) : ExprForm → ExprForm
  | ident var => .ident var
  | intLit n => .intLit n
  | charLit byte => .charLit byte
  | strLit name => .strLit name
  | paren inner => .paren (f inner)
  | sizeOf operand => .sizeOf (operand.mapExprs f)
  | unary op operand => .unary op (f operand)
  | binary op left right => .binary op (f left) (f right)
  | index base position => .index (f base) (f position)
  | call callee args => .call callee (args.map f)
  | cast conversion type operand => .cast conversion type (f operand)

/-- The statement that refers to other expressions. -/
def Stmt.mapExprs (f : ExprId → ExprId) : Stmt → Stmt
  | decl vars => .decl vars
  | expr id => .expr (f id)
  | branch cond yes no => .branch (f cond) yes no
  | .while cond body => .while (f cond) body
  | .for start cond step body => .for start (cond.map f) (step.map f) body
  | .return value => .return (value.map f)
  | compound stmts => .compound stmts
  | .break => .break
  | .continue => .continue

namespace Program

/-! ### Parentheses -/

/-- The expressions in parentheses. -/
def parens (program : Program) : List ExprId :=
  ((List.range program.exprs.size).map ExprId.mk).filter fun id =>
    match (program.expr? id).map Expr.form with
    | some (.paren _) => true
    | _ => false

theorem mem_parens {program : Program} {id inner : ExprId} {type : TypeId}
    (found : program.expr? id = some ⟨.paren inner, type⟩) : id ∈ program.parens := by
  obtain ⟨lt, -⟩ := Array.getElem?_eq_some_iff.mp found
  refine List.mem_filter.mpr ⟨List.mem_map.mpr ⟨id.index, List.mem_range.mpr lt, rfl⟩, ?_⟩
  rw [found]
  rfl

/-- In a built program parentheses are around what was there before. -/
theorem Built.parensDescend {program : Program} (built : program.Built) :
    program.ParensDescend := by
  intro id inner type found
  induction built with
  | refl =>
    obtain ⟨lt, -⟩ := Array.getElem?_eq_some_iff.mp found
    cases lt
  | @step program construction _ fits ih =>
    obtain grown | ⟨beside, form, grown, appended, given⟩ := run_cases construction program
    · unfold expr? at found ih
      rw [grown.same] at found
      exact ih found
    · rw [appended] at found
      unfold expr? at found ih
      rw [Builder.exprs_run_expr, grown.same, Array.getElem?_push] at found
      split at found
      · next last =>
        obtain rfl : form = .paren inner := congrArg Expr.form (Option.some.inj found)
        obtain ⟨rfl, rfl⟩ | ⟨name, literal⟩ := given
        · exact last ▸ fits
        · cases literal
      · exact ih found

/-! ### The program without parentheses -/

/-- The program in which every reference to an expression in parentheses is replaced by one to the
expression under them. -/
def unwrapped (program : Program) : Program :=
  { program with
    exprs := program.exprs.map fun expr =>
      { expr with form := expr.form.mapExprs program.unparen }
    stmts := program.stmts.map (·.mapExprs program.unparen)
    vars := program.vars.map fun decl => { decl with init := decl.init.map program.unparen } }

theorem expr?_unwrapped (program : Program) (id : ExprId) :
    program.unwrapped.expr? id = (program.expr? id).map fun expr =>
      { expr with form := expr.form.mapExprs program.unparen } :=
  Array.getElem?_map

theorem stmt?_unwrapped (program : Program) (id : StmtId) :
    program.unwrapped.stmt? id = (program.stmt? id).map (·.mapExprs program.unparen) :=
  Array.getElem?_map

theorem var?_unwrapped (program : Program) (id : VarId) :
    program.unwrapped.var? id = (program.var? id).map fun decl =>
      { decl with init := decl.init.map program.unparen } :=
  Array.getElem?_map

theorem varName_unwrapped (program : Program) (id : VarId) :
    program.unwrapped.varName id = program.varName id := by
  unfold varName
  rw [var?_unwrapped, Option.map_map]
  rfl

/-- Neither the types of expressions nor those of what they refer to change. -/
theorem exprType_unwrapped {program : Program} (fit : program.TypesFit) (id : ExprId) :
    program.unwrapped.exprType (program.unparen id) = program.exprType id := by
  rw [← fit.exprType_unparen id]
  unfold exprType
  rw [expr?_unwrapped, Option.map_map]
  rfl

/-- The target of an assignment has no parentheses any more that could be taken off. -/
theorem unparen_unwrapped {program : Program} (descend : program.ParensDescend) (id : ExprId) :
    program.unwrapped.unparen (program.unparen id) = program.unparen id := by
  refine unparen_of_not_paren fun inner found => ?_
  rw [expr?_unwrapped, Option.map_map] at found
  obtain ⟨⟨form, type⟩, there, same⟩ := Option.map_eq_some_iff.mp found
  cases form with
  | paren below =>
    refine descend.unparen_ne_paren id below ?_
    rw [there]
    rfl
  | ident | intLit | charLit | strLit | sizeOf | unary | binary | index | call | cast => cases same

/-- A survey of the top-level declarations finds the same. -/
theorem setup_unwrapped (program : Program) : program.unwrapped.setup = program.setup := rfl

end Program

end CellC
