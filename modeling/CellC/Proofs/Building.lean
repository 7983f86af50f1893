import CellC.Program.Construction
import Mathlib.Logic.Basic

/-!
# Programs in the making

Programs are built in steps, and nothing that a step has added is changed later, except that
functions receive parameters and bodies. Every expression therefore still has the type that it was
given in the program of that moment, whose types, variables and functions are still there.

## Main definitions

* `Program.LeadsTo`, `Program.Built`: programs that further steps lead to, or steps from nothing
* `Program.GrowsInto`: everything is still there
* `Program.Origin`: the program in which an expression got its type

## Main results

* `Program.LeadsTo.growsInto`: steps only add to a program
* `Program.LeadsTo.origin`: every expression has an origin
-/

namespace CellC

variable {α β : Type}

/-! ### Steps -/

/-- What the type of an expression of the form depends on is part of the program. -/
def ExprForm.Fits (program : Program) : ExprForm → Prop
  | ident var => var.index < program.vars.size
  | paren inner => inner.index < program.exprs.size
  | unary _ operand => operand.index < program.exprs.size
  | binary _ left right => left.index < program.exprs.size ∧ right.index < program.exprs.size
  | index base _ => base.index < program.exprs.size
  | call callee _ => callee.index < program.funcs.size
  | intLit _ | charLit _ | strLit _ | sizeOf _ | cast _ _ _ => True

instance (program : Program) : (form : ExprForm) → Decidable (form.Fits program)
  | .ident _ | .paren _ | .unary _ _ | .index _ _ | .call _ _ =>
    inferInstanceAs (Decidable (_ < _))
  | .binary _ _ _ => inferInstanceAs (Decidable (_ ∧ _))
  | .intLit _ | .charLit _ | .strLit _ | .sizeOf _ | .cast _ _ _ =>
    inferInstanceAs (Decidable True)

/-- A step can be carried out on a program: what it looks up is there. -/
def Construction.Fits (program : Program) : Construction → Prop
  | expr form => form.Fits program
  | param func _ _ | body func _ => func.index < program.funcs.size
  | type _ | function _ _ | prototype _ _ _ | var _ _ _ | global _ _ _ | string _ | stmt _ => True

instance (program : Program) : (step : Construction) → Decidable (step.Fits program)
  | .expr form => inferInstanceAs (Decidable (form.Fits program))
  | .param _ _ _ | .body _ _ => inferInstanceAs (Decidable (_ < _))
  | .type _ | .function _ _ | .prototype _ _ _ | .var _ _ _ | .global _ _ _ | .string _ |
    .stmt _ => inferInstanceAs (Decidable True)

namespace Program

/-- Further steps lead from one program to the other. -/
inductive LeadsTo (early : Program) : Program → Prop
  | refl : LeadsTo early early
  | step {program : Program} (construction : Construction) :
    LeadsTo early program → construction.Fits program →
    LeadsTo early (construction.run.run program).2

/-- The program is built in steps, starting from the empty one. -/
def Built (program : Program) : Prop := LeadsTo {} program

/-- Steps in a row can be carried out on a program. -/
def StepsFit (program : Program) : List Construction → Prop
  | [] => True
  | step :: steps => step.Fits program ∧ StepsFit (step.run.run program).2 steps

instance decidableStepsFit : (program : Program) → (steps : List Construction) →
    Decidable (program.StepsFit steps)
  | _, [] => inferInstanceAs (Decidable True)
  | program, step :: steps =>
    have := decidableStepsFit (step.run.run program).2 steps
    inferInstanceAs (Decidable (step.Fits program ∧ _))

theorem LeadsTo.trans {first second third : Program} (h : first.LeadsTo second)
    (h' : second.LeadsTo third) : first.LeadsTo third := by
  induction h' with
  | refl => exact h
  | step construction _ fits ih => exact .step construction ih fits

/-- Steps that fit one after the other lead from a program to what they make of it. -/
theorem leadsTo_mapM {program : Program} {steps : List Construction}
    (fit : program.StepsFit steps) :
    program.LeadsTo ((steps.mapM Construction.run).run program).2 := by
  induction steps generalizing program with
  | nil => exact .refl
  | cons step steps ih =>
    rw [List.mapM_cons]
    exact (LeadsTo.step step .refl fit.1).trans (ih fit.2)

/-- Steps that can be carried out build a program. -/
theorem built_ofConstructions {steps : List Construction} (fit : StepsFit {} steps) :
    (ofConstructions steps).2.Built :=
  leadsTo_mapM fit

/-! ### Growth -/

/-- What is in the one program is also in the other, under the same number. -/
structure GrowsInto (before after : Program) : Prop where
  exprs : ∀ id expr, before.expr? id = some expr → after.expr? id = some expr
  vars : ∀ id decl, before.var? id = some decl → after.var? id = some decl
  /-- A function may receive parameters and a body. -/
  funcs : ∀ id decl, before.func? id = some decl →
    ∃ decl', after.func? id = some decl' ∧ decl'.name = decl.name ∧ decl'.ret = decl.ret
  layers : ∀ index layer, before.types.layers.get? index = some layer →
    after.types.layers.get? index = some layer

/-- Anything may have been added but expressions. -/
structure GrowsBeside (before after : Program) : Prop extends before.GrowsInto after where
  same : after.exprs = before.exprs

namespace GrowsInto

variable {first second third before after : Program}

theorem refl (program : Program) : program.GrowsInto program where
  exprs _ _ found := found
  vars _ _ found := found
  funcs _ decl found := ⟨decl, found, rfl, rfl⟩
  layers _ _ found := found

theorem trans (h : first.GrowsInto second) (h' : second.GrowsInto third) :
    first.GrowsInto third where
  exprs id expr found := h'.exprs id expr (h.exprs id expr found)
  vars id decl found := h'.vars id decl (h.vars id decl found)
  funcs id decl found := by
    obtain ⟨decl', found', name', ret'⟩ := h.funcs id decl found
    obtain ⟨decl'', found'', name'', ret''⟩ := h'.funcs id decl' found'
    exact ⟨decl'', found'', name''.trans name', ret''.trans ret'⟩
  layers index layer found := h'.layers index layer (h.layers index layer found)

/-- Growing leaves the types of the expressions that were there as they are. -/
theorem exprType (h : before.GrowsInto after) {id : ExprId} (lt : id.index < before.exprs.size) :
    after.exprType id = before.exprType id := by
  have found : before.expr? id = some before.exprs[id.index] := Array.getElem?_eq_getElem lt
  rw [exprType_of_expr? found, exprType_of_expr? (h.exprs id _ found)]

theorem varType (h : before.GrowsInto after) {id : VarId} (lt : id.index < before.vars.size) :
    after.varType id = before.varType id := by
  have found : before.var? id = some before.vars[id.index] := Array.getElem?_eq_getElem lt
  rw [varType_of_var? found, varType_of_var? (h.vars id _ found)]

/-- Growing leaves the result types of the functions that were there as they are. -/
theorem resultType (h : before.GrowsInto after) {id : FuncId}
    (lt : id.index < before.funcs.size) : after.resultType id = before.resultType id := by
  have found : before.func? id = some before.funcs[id.index] := Array.getElem?_eq_getElem lt
  obtain ⟨decl', found', -, ret⟩ := h.funcs id _ found
  rw [resultType_of_func? found, resultType_of_func? found', ret]

/-- A type that is known keeps its outermost layer. -/
theorem layer_eq (h : before.GrowsInto after) {type : TypeId} {layer : TypeLayer}
    (known : before.types.layers.get? type.index = some layer) :
    after.types.layer type = layer := by
  unfold TypeTable.layer
  rw [h.layers _ _ known]
  rfl

/-- A type with elements keeps them: only a known type has any. -/
theorem element? (h : before.GrowsInto after) {type elem : TypeId}
    (found : before.types.element? type = some elem) : after.types.element? type = some elem := by
  unfold TypeTable.element? TypeTable.layer at found ⊢
  cases known : before.types.layers.get? type.index with
  | none =>
    rw [known] at found
    cases found
  | some layer =>
    rw [known] at found
    rw [h.layers _ _ known]
    exact found

end GrowsInto

namespace GrowsBeside

variable {first second third : Program}

theorem refl (program : Program) : program.GrowsBeside program :=
  { GrowsInto.refl program with same := rfl }

theorem trans (h : first.GrowsBeside second) (h' : second.GrowsBeside third) :
    first.GrowsBeside third :=
  { h.toGrowsInto.trans h'.toGrowsInto with same := h'.same.trans h.same }

end GrowsBeside

end Program

/-! ### Builders -/

namespace Builder

/-- The builder adds to any program, but no expressions. -/
def Extends (builder : Builder α) : Prop :=
  ∀ program : Program, program.GrowsBeside (builder.run program).2

theorem extends_pure (a : α) : Extends (pure a) := fun program => .refl program

/-- Builders in sequence extend a program if each of them does. -/
theorem Extends.bind {builder : Builder α} {next : α → Builder β} (first : Extends builder)
    (rest : ∀ a, Extends (next a)) : Extends (builder >>= next) :=
  fun program => (first program).trans (rest _ _)

theorem Extends.map {builder : Builder α} {f : α → β} (first : Extends builder) :
    Extends (f <$> builder) := first

/-- A type is added behind those that are there, or found among them. -/
theorem extends_type (layer : TypeLayer) : Extends (type layer) := by
  intro program
  have kept : ∀ index old, program.types.layers.get? index = some old →
      ((type layer).run program).2.types.layers.get? index = some old :=
    fun index old found => Interner.get?_intern_of_some found
  exact { Program.GrowsInto.refl program with layers := kept, same := rfl }

theorem extends_name (spelling : String) : Extends (name spelling) :=
  fun program => { Program.GrowsInto.refl program with same := rfl }

theorem extends_topLevel (decl : TopLevel) : Extends (topLevel decl) :=
  fun program => { Program.GrowsInto.refl program with same := rfl }

theorem extends_stmt (form : Stmt) : Extends (stmt form) :=
  fun program => { Program.GrowsInto.refl program with same := rfl }

/-- What an array holds under a number it still holds after a push. -/
theorem getElem?_push_of_some {entries : Array α} {i : Nat} {entry new : α}
    (found : entries[i]? = some entry) : (entries.push new)[i]? = some entry := by
  obtain ⟨lt, rfl⟩ := Array.getElem?_eq_some_iff.mp found
  rw [Array.getElem?_push_lt lt]

theorem extends_var (spelling : String) (type : TypeId) (init : Option ExprId) :
    Extends (var spelling type init) := by
  refine (extends_name spelling).bind fun name program => ?_
  exact { Program.GrowsInto.refl program with
    vars := fun id decl found => getElem?_push_of_some found
    same := rfl }

theorem extends_global (spelling : String) (type : TypeId) (init : Option ExprId) :
    Extends (global spelling type init) :=
  (extends_var spelling type init).bind fun _ => (extends_topLevel _).bind fun _ => extends_pure _

theorem extends_function (spelling : String) (ret : TypeId) : Extends (function spelling ret) := by
  refine (extends_name spelling).bind fun name => Extends.bind (fun program => ?_) fun id =>
    (extends_topLevel _).bind fun _ => extends_pure _
  exact { Program.GrowsInto.refl program with
    funcs := fun id decl found => ⟨decl, getElem?_push_of_some found, rfl, rfl⟩
    same := rfl }

/-- A function may be changed in anything but its name and its result type. -/
theorem extends_modifyFunc (func : FuncId) {f : FuncDecl → FuncDecl}
    (kept : ∀ decl, (f decl).name = decl.name ∧ (f decl).ret = decl.ret) :
    Extends (modifyFunc func f) := by
  intro program
  have funcs : ∀ id decl, program.func? id = some decl →
      ∃ decl', ((modifyFunc func f).run program).2.func? id = some decl' ∧
        decl'.name = decl.name ∧ decl'.ret = decl.ret := by
    intro id decl found
    show ∃ decl', (program.funcs.modify func.index f)[id.index]? = some decl' ∧ _
    unfold Program.func? at found
    rw [Array.getElem?_modify, found]
    by_cases here : func.index = id.index
    · exact ⟨f decl, by simp [here], kept decl⟩
    · exact ⟨decl, by simp [here], rfl, rfl⟩
  exact { Program.GrowsInto.refl program with funcs, same := rfl }

theorem extends_param (func : FuncId) (spelling : String) (type : TypeId) :
    Extends (param func spelling type) := by
  refine (extends_var spelling type none).bind fun id => Extends.bind ?_ fun _ => extends_pure _
  exact extends_modifyFunc func fun _ => ⟨rfl, rfl⟩

theorem extends_anonymousParams (func : FuncId) (start : Nat) (types : List TypeId) :
    Extends (anonymousParams func start types) := by
  induction types generalizing start with
  | nil => exact extends_pure _
  | cons type types ih => exact (extends_param func _ type).map.bind fun _ => ih _

theorem extends_prototype (spelling : String) (params : List TypeId) (ret : TypeId) :
    Extends (prototype spelling params ret) :=
  (extends_function spelling ret).bind fun id =>
    (extends_anonymousParams id 0 params).bind fun _ => extends_pure _

theorem extends_pointerType? (operand : TypeId) : Extends (pointerType? operand) := by
  refine Extends.bind (fun program => .refl program) fun program => ?_
  cases program.types.layer operand with
  | pointer pointee => exact extends_pure _
  | array elem len => exact (extends_type _).map
  | int | char | void => exact extends_pure _

theorem extends_elementType (operand : TypeId) : Extends (elementType operand) :=
  fun program => .refl program

theorem extends_binaryType (op : BinaryOp) (left right : TypeId) :
    Extends (binaryType op left right) := by
  cases op with
  | add =>
    refine (extends_pointerType? left).bind fun pointer => ?_
    cases pointer with
    | some pointer => exact extends_pure _
    | none => exact (extends_pointerType? right).bind fun _ => extends_pure _
  | sub => exact (extends_pointerType? left).bind fun _ => extends_pure _
  | assign | mul | div | rem | bitAnd | bitOr => exact extends_pure _
  | lt | gt | le | ge | eq | ne | logicalAnd | logicalOr => exact extends_pure _

/-- Finding the static type of a form may add types and nothing else. -/
theorem extends_staticType (form : ExprForm) : Extends (staticType form) := by
  refine Extends.bind (fun program => .refl program) fun program => ?_
  cases form with
  | strLit name => exact extends_type _
  | unary op operand =>
    cases op with
    | deref => exact extends_elementType _
    | addrOf => exact extends_type _
    | neg | plus | bitNot | not => exact extends_pure _
  | binary op left right => exact extends_binaryType op _ _
  | index base index => exact extends_elementType _
  | ident | intLit | charLit | paren | sizeOf | call | cast => exact extends_pure _

/-- An expression is added behind all others, with its static type. -/
theorem exprs_run_expr (form : ExprForm) (program : Program) :
    ((expr form).run program).2.exprs =
      program.exprs.push ⟨form, ((staticType form).run program).1⟩ := by
  rw [← (extends_staticType form program).same]
  rfl

/-- A new expression comes after the types that its own type needs. -/
theorem growsInto_expr (form : ExprForm) (program : Program) :
    ((staticType form).run program).2.GrowsInto ((expr form).run program).2 :=
  { Program.GrowsInto.refl ((staticType form).run program).2 with
    exprs := fun _ _ found => getElem?_push_of_some found }

end Builder

/-! ### Origins -/

namespace Program

/-- A step adds anything but expressions, or it appends one expression in the end: what it was given
to append, or a string literal. -/
theorem run_cases (construction : Construction) (program : Program) :
    program.GrowsBeside (construction.run.run program).2 ∨
    ∃ beside form, program.GrowsBeside beside ∧
      (construction.run.run program).2 = ((Builder.expr form).run beside).2 ∧
      (construction = .expr form ∧ beside = program ∨ ∃ name, form = .strLit name) := by
  cases construction with
  | type layer => exact .inl ((Builder.extends_type layer).map program)
  | function name ret => exact .inl ((Builder.extends_function name ret).map program)
  | prototype name params ret =>
    exact .inl ((Builder.extends_prototype name params ret).map program)
  | param func name type => exact .inl ((Builder.extends_param func name type).map program)
  | body func start =>
    have extended : Builder.Extends (Builder.body func start) :=
      Builder.extends_modifyFunc func fun _ => ⟨rfl, rfl⟩
    exact .inl (extended.bind (fun _ => Builder.extends_pure Product.nothing) program)
  | var name type init => exact .inl ((Builder.extends_var name type init).map program)
  | global name type init => exact .inl ((Builder.extends_global name type init).map program)
  | expr form => exact .inr ⟨program, form, .refl program, rfl, .inl ⟨rfl, rfl⟩⟩
  | string text =>
    exact .inr ⟨_, _, Builder.extends_name text program, rfl, .inr ⟨_, rfl⟩⟩
  | stmt form => exact .inl ((Builder.extends_stmt form).map program)

/-- Every step of construction makes a program grow. -/
theorem growsInto_run (construction : Construction) (program : Program) :
    program.GrowsInto (construction.run.run program).2 := by
  obtain grown | ⟨beside, form, grown, appended, -⟩ := run_cases construction program
  · exact grown.toGrowsInto
  · rw [appended]
    have typed := (Builder.extends_staticType form beside).toGrowsInto
    exact grown.toGrowsInto.trans (typed.trans (Builder.growsInto_expr form beside))

/-- However many steps lead from one program to another, the program grows. -/
theorem LeadsTo.growsInto {early program : Program} (later : early.LeadsTo program) :
    early.GrowsInto program := by
  induction later with
  | refl => exact .refl early
  | step construction _ _ ih => exact ih.trans (growsInto_run construction _)

/-- In `before`, on the way from `early` to `program`, an expression of the form got its type. -/
structure Origin (early program before : Program) (form : ExprForm) (type : TypeId) : Prop where
  later : early.LeadsTo before
  fits : form.Fits before
  type : type = ((Builder.staticType form).run before).1
  grows : ((Builder.staticType form).run before).2.GrowsInto program

theorem Origin.growsInto {early program before : Program} {form : ExprForm} {type : TypeId}
    (origin : early.Origin program before form type) : before.GrowsInto program :=
  (Builder.extends_staticType form before).toGrowsInto.trans origin.grows

/-- Every expression that was added since has its type from a program in between. -/
theorem LeadsTo.origin {early program : Program} (later : early.LeadsTo program) {id : ExprId}
    {form : ExprForm} {type : TypeId} (found : program.expr? id = some ⟨form, type⟩)
    (new : early.exprs.size ≤ id.index) (other : ∀ name, form ≠ .strLit name) :
    ∃ before, early.Origin program before form type := by
  induction later with
  | refl =>
    obtain ⟨lt, -⟩ := Array.getElem?_eq_some_iff.mp found
    exact absurd lt (Nat.not_lt.mpr new)
  | @step program construction later' fits ih =>
    have older (found' : program.expr? id = some ⟨form, type⟩) :
        ∃ before, early.Origin (construction.run.run program).2 before form type := by
      obtain ⟨before, origin⟩ := ih found'
      exact ⟨before, { origin with grows := origin.grows.trans (growsInto_run construction _) }⟩
    obtain grown | ⟨beside, last, grown, appended, given⟩ := run_cases construction program
    · apply older
      unfold expr? at found ⊢
      rwa [grown.same] at found
    · rw [appended] at found ⊢
      rw [appended] at older
      unfold expr? at found
      rw [Builder.exprs_run_expr, grown.same, Array.getElem?_push] at found
      split at found
      · -- The expression is the one that the step appends, which is no string literal.
        cases found
        obtain ⟨rfl, rfl⟩ | ⟨name, literal⟩ := given
        · exact ⟨beside, later', fits, rfl, Builder.growsInto_expr form beside⟩
        · exact absurd literal (other name)
      · exact older found

end Program

end CellC
