import CellC.Proofs.Building.References

/-!
# What building keeps

Building a program only adds to it. Expressions, statements and variables are never changed, and
functions are not either, except that they receive parameters and a body; and whatever a reference
led to it still leads to.

## Main definitions

* `Program.Keeps`: whatever is in the one program is also in the other, under the same number
* `Program.Retains`: the one program has whatever the other has

## Main results

* `Program.keeps_run`: a step of building keeps whatever is there
-/

namespace CellC

/-! ### What is kept -/

namespace Program

/-- What the one program has handed out the other has, too. -/
def Retains (before after : Program) : Prop := ∀ reference, before.Has reference →
  after.Has reference

/-- Whatever is in the one program is also in the other, under the same number. -/
structure Keeps (before after : Program) : Prop extends before.GrowsInto after where
  stmts : ∀ id stmt, before.stmt? id = some stmt → after.stmt? id = some stmt
  names : ∀ i spelling, before.names.spellings.get? i = some spelling →
    after.names.spellings.get? i = some spelling

namespace Keeps

variable {first second third : Program}

theorem refl (program : Program) : program.Keeps program :=
  { GrowsInto.refl program with
    stmts := fun _ _ found => found
    names := fun _ _ found => found }

theorem trans (h : first.Keeps second) (h' : second.Keeps third) : first.Keeps third :=
  { h.toGrowsInto.trans h'.toGrowsInto with
    stmts := fun id stmt found => h'.stmts id stmt (h.stmts id stmt found)
    names := fun i spelling found => h'.names i spelling (h.names i spelling found) }

/-- What is kept is retained: every number that was handed out still leads somewhere. -/
theorem retains (h : first.Keeps second) : first.Retains second := by
  have still {α : Type} {entries entries' : Array α} {i : Nat} (lt : i < entries.size)
      (kept : ∀ entry, entries[i]? = some entry → entries'[i]? = some entry) :
      i < entries'.size :=
    (Array.getElem?_eq_some_iff.mp (kept _ (Array.getElem?_eq_getElem lt))).1
  intro reference has
  cases reference with
  | expr id => exact still has (h.exprs id)
  | stmt id => exact still has (h.stmts id)
  | var id => exact still has (h.vars id)
  | func id =>
    obtain ⟨decl, found, -⟩ := h.funcs id _ (Array.getElem?_eq_getElem has)
    exact (Array.getElem?_eq_some_iff.mp found).1
  | type id => exact h.toGrowsInto.has has
  | name name => exact still has (h.names name.index)

end Keeps

end Program

open Program (Keeps)

namespace Builder

/-- A new type leaves everything else as it is. -/
theorem keeps_type (layer : TypeLayer) (program : Program) :
    program.Keeps ((type layer).run program).2 :=
  { (extends_type layer program).toGrowsInto, Keeps.refl program with }

theorem keeps_name (spelling : String) (program : Program) :
    program.Keeps ((name spelling).run program).2 :=
  { Keeps.refl program, (extends_name spelling program).toGrowsInto with
    names := fun _ _ found => Interner.get?_intern_of_some found }

theorem keeps_var (spelling : String) (type : TypeId) (init : Option ExprId) (program : Program) :
    program.Keeps ((var spelling type init).run program).2 :=
  { (extends_var spelling type init program).toGrowsInto, keeps_name spelling program with }

/-- A file-scope variable is added behind the variables and the declarations. -/
theorem keeps_global (spelling : String) (type : TypeId) (init : Option ExprId)
    (program : Program) : program.Keeps ((global spelling type init).run program).2 :=
  { (extends_global spelling type init program).toGrowsInto, keeps_name spelling program with }

theorem keeps_function (spelling : String) (ret : TypeId) (program : Program) :
    program.Keeps ((function spelling ret).run program).2 :=
  { (extends_function spelling ret program).toGrowsInto, keeps_name spelling program with }

/-- A function may be changed where neither its name nor its result type is concerned. -/
theorem keeps_modifyFunc (func : FuncId) {f : FuncDecl → FuncDecl}
    (kept : ∀ decl, (f decl).name = decl.name ∧ (f decl).ret = decl.ret) (program : Program) :
    program.Keeps ((modifyFunc func f).run program).2 :=
  { (extends_modifyFunc func kept program).toGrowsInto, Keeps.refl program with }

theorem keeps_param (func : FuncId) (spelling : String) (type : TypeId) (program : Program) :
    program.Keeps ((param func spelling type).run program).2 :=
  (keeps_var spelling type none program).trans
    (keeps_modifyFunc func (f := fun decl => { decl with params := decl.params ++ [_] })
      (fun _ => ⟨rfl, rfl⟩) _)

/-- A body is put into a function that is there. -/
theorem keeps_body (func : FuncId) (start : StmtId) (program : Program) :
    program.Keeps ((body func start).run program).2 :=
  keeps_modifyFunc func (f := fun decl => { decl with body := some start })
    (fun _ => ⟨rfl, rfl⟩) program

theorem keeps_anonymousParams (func : FuncId) (start : Nat) (types : List TypeId)
    (program : Program) : program.Keeps ((anonymousParams func start types).run program).2 := by
  induction types generalizing start program with
  | nil => exact .refl program
  | cons type types ih => exact (keeps_param func _ type program).trans (ih _ _)

/-- A prototype adds its parameters as variables without names. -/
theorem keeps_prototype (spelling : String) (params : List TypeId) (ret : TypeId)
    (program : Program) : program.Keeps ((prototype spelling params ret).run program).2 :=
  (keeps_function spelling ret program).trans (keeps_anonymousParams _ 0 params _)

/-- Looking for the type of an address may add types and nothing else. -/
theorem onlyTypes_pointerType? (operand : TypeId) (program : Program) :
    ∃ types, ((pointerType? operand).run program).2 = { program with types } := by
  unfold pointerType?
  simp only [StateT.run_bind, StateT.run_get, pure_bind]
  cases program.types.layer operand with
  | pointer | array | int | char | void => exact ⟨_, rfl⟩

theorem onlyTypes_binaryType (op : BinaryOp) (left right : TypeId) (program : Program) :
    ∃ types, ((binaryType op left right).run program).2 = { program with types } := by
  obtain ⟨types, turned⟩ := onlyTypes_pointerType? left program
  cases op with
  | assign | mul | div | rem | bitAnd | bitOr => exact ⟨_, rfl⟩
  | lt | gt | le | ge | eq | ne | logicalAnd | logicalOr => exact ⟨_, rfl⟩
  | sub => exact ⟨types, turned⟩
  | add =>
    unfold binaryType
    dsimp only
    rw [StateT.run_bind]
    rcases first : (pointerType? left).run program with ⟨_ | pointer, after⟩ <;>
      rw [first] at turned <;> obtain rfl := turned
    · exact onlyTypes_pointerType? right _
    · exact ⟨types, rfl⟩

/-- Finding the type of an expression changes nothing but the table of types. -/
theorem onlyTypes_staticType (form : ExprForm) (program : Program) :
    ∃ types, ((staticType form).run program).2 = { program with types } := by
  cases form with
  | binary op left right => exact onlyTypes_binaryType op _ _ program
  | unary op operand =>
    cases op with
    | deref | addrOf | not | neg | plus | bitNot => exact ⟨_, rfl⟩
  | ident | intLit | charLit | strLit | paren | sizeOf | index | call | cast => exact ⟨_, rfl⟩

/-- A new expression is pushed with the type that its form calls for, which may be new as well. -/
theorem run_expr (form : ExprForm) (program : Program) :
    ∃ type types, (expr form).run program =
      (⟨program.exprs.size⟩, { program with types, exprs := program.exprs.push ⟨form, type⟩ }) := by
  obtain ⟨types, same⟩ := onlyTypes_staticType form program
  unfold expr
  rw [StateT.run_bind]
  rcases typed : (staticType form).run program with ⟨type, after⟩
  rw [typed] at same
  obtain rfl := same
  exact ⟨type, types, rfl⟩

theorem keeps_staticType (form : ExprForm) (program : Program) :
    program.Keeps ((staticType form).run program).2 := by
  have grows := (extends_staticType form program).toGrowsInto
  obtain ⟨types, same⟩ := onlyTypes_staticType form program
  rw [same] at grows ⊢
  exact { grows, Keeps.refl program with }

/-- A new expression leaves those that are there as they are. -/
theorem keeps_expr (form : ExprForm) (program : Program) :
    program.Keeps ((expr form).run program).2 :=
  (keeps_staticType form program).trans
    { growsInto_expr form program, Keeps.refl ((staticType form).run program).2 with }

theorem keeps_stmt (form : Stmt) (program : Program) :
    program.Keeps ((stmt form).run program).2 :=
  { Keeps.refl program with stmts := fun _ _ found => getElem?_push_of_some found }

/-- The name that is handed out for a spelling is there. -/
theorem has_name (spelling : String) (program : Program) :
    ((name spelling).run program).2.Has (.name ((name spelling).run program).1) := by
  have found : (program.names.spellings.intern spelling).2.get?
      (program.names.spellings.intern spelling).1 = some spelling := Interner.get?_intern_self
  exact (Array.getElem?_eq_some_iff.mp found).1

end Builder

/-- A step of building a program changes nothing that is there, except that functions receive
parameters and bodies. -/
theorem Program.keeps_run (construction : Construction) (program : Program) :
    program.Keeps (construction.run.run program).2 := by
  cases construction with
  | type layer => exact Builder.keeps_type layer program
  | function name ret => exact Builder.keeps_function name ret program
  | prototype name params ret => exact Builder.keeps_prototype name params ret program
  | param func name type => exact Builder.keeps_param func name type program
  | body func start => exact Builder.keeps_body func start program
  | var name type init => exact Builder.keeps_var name type init program
  | global name type init => exact Builder.keeps_global name type init program
  | expr form => exact Builder.keeps_expr form program
  | string text =>
    exact (Builder.keeps_name text program).trans
      (Builder.keeps_expr (.strLit ((Builder.name text).run program).1) _)
  | stmt form => exact Builder.keeps_stmt form program

end CellC
