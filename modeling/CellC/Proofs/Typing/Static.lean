import CellC.Proofs.Building
import CellC.Proofs.Returns

/-!
# Static types of built programs

What the type of an expression of a built program is, in terms of the types of its parts and of the
declarations it refers to.

## Main definitions

* `Program.TypesFit`: the types of expressions that yield a value as they find it
* `Program.IsCast`: conversions, also under parentheses
* `Program.PrimitivesFit`: the primitives without a result are declared to have none
* `Config.WellTyped`: all that evaluation relies on

## Main results

* `Program.Built.typesFit`: every built program has such types
* `Program.TypesFit.exprType_unparen`: parentheses do not change a type
* `Config.wellTyped_of_setup`: every program that has been set up is well-typed
-/

namespace CellC

namespace Program

/-- The types of those expressions whose values are not read at the type of the expression itself,
but come from a variable, a literal, a part of the expression or a primitive. -/
structure TypesFit (program : Program) : Prop where
  int : program.types.layer .int = .int
  char : program.types.layer .char = .char
  ident : ∀ {id var type}, program.expr? id = some ⟨.ident var, type⟩ → type = program.varType var
  intLit : ∀ {id n type}, program.expr? id = some ⟨.intLit n, type⟩ → type = .int
  charLit : ∀ {id byte type}, program.expr? id = some ⟨.charLit byte, type⟩ → type = .char
  sizeOf : ∀ {id operand type}, program.expr? id = some ⟨.sizeOf operand, type⟩ → type = .int
  paren : ∀ {id inner type}, program.expr? id = some ⟨.paren inner, type⟩ →
    type = program.exprType inner
  assign : ∀ {id target value type}, program.expr? id = some ⟨.binary .assign target value, type⟩ →
    type = program.exprType target
  call : ∀ {id callee args type}, program.expr? id = some ⟨.call callee args, type⟩ →
    type = program.resultType callee

/-- Every expression got its type from what was there at the time, and that has not changed. -/
theorem Built.typesFit {program : Program} (built : program.Built) : program.TypesFit where
  int := built.growsInto.layer_eq rfl
  char := built.growsInto.layer_eq rfl
  ident found := by
    obtain ⟨before, origin⟩ := built.origin found (Nat.zero_le _) (by simp)
    rw [origin.growsInto.varType origin.fits]
    exact origin.type
  intLit found := by
    obtain ⟨before, origin⟩ := built.origin found (Nat.zero_le _) (by simp)
    exact origin.type
  charLit found := by
    obtain ⟨before, origin⟩ := built.origin found (Nat.zero_le _) (by simp)
    exact origin.type
  sizeOf found := by
    obtain ⟨before, origin⟩ := built.origin found (Nat.zero_le _) (by simp)
    exact origin.type
  paren found := by
    obtain ⟨before, origin⟩ := built.origin found (Nat.zero_le _) (by simp)
    rw [origin.growsInto.exprType origin.fits]
    exact origin.type
  assign found := by
    obtain ⟨before, origin⟩ := built.origin found (Nat.zero_le _) (by simp)
    rw [origin.growsInto.exprType origin.fits.1]
    exact origin.type
  call found := by
    obtain ⟨before, origin⟩ := built.origin found (Nat.zero_le _) (by simp)
    rw [origin.growsInto.resultType origin.fits]
    exact origin.type

/-- Parentheses do not change a type. -/
theorem TypesFit.exprType_unparen {program : Program} (fit : program.TypesFit) (id : ExprId) :
    program.exprType (program.unparen id) = program.exprType id := by
  unfold unparen
  generalize program.exprs.size = layers
  induction layers generalizing id with
  | zero => rfl
  | succ layers ih =>
    unfold unparenWithin
    split
    · next inner found =>
      obtain ⟨⟨form, type⟩, there, rfl⟩ := Option.map_eq_some_iff.mp found
      rw [ih, exprType_of_expr? there, fit.paren there]
    · rfl

/-- The expression is a conversion, possibly in parentheses. -/
inductive IsCast (program : Program) : ExprId → Prop
  | cast {id conversion target operand type} :
    program.expr? id = some ⟨.cast conversion target operand, type⟩ → IsCast program id
  | paren {id inner type} :
    program.expr? id = some ⟨.paren inner, type⟩ → IsCast program inner → IsCast program id

/-! ### Primitives -/

/-- Functions with the names of the primitives that yield nothing are declared with the result type
`int` or `void`. -/
def PrimitivesFit (program : Program) : Prop :=
  ∀ func decl, program.func? func = some decl →
    program.names.spelling decl.name = Primitive.print.name ∨
      program.names.spelling decl.name = Primitive.free.name →
    program.types.layer decl.ret = .int ∨ program.types.layer decl.ret = .void

end Program

/-- A survey notes functions as primitives that have the name of one. -/
def Survey.NamesFit (program : Program) (survey : Survey) : Prop :=
  ∀ func primitive, survey.primitives[func.index]? = some primitive →
    ∃ decl, program.func? func = some decl ∧
      program.names.spelling decl.name = primitive.name

theorem Survey.NamesFit.addFunction {program : Program} {survey : Survey}
    (fit : survey.NamesFit program) (func : FuncId) :
    (survey.addFunction program func).NamesFit program := by
  unfold Survey.addFunction
  cases found : program.func? func with
  | none => exact fit
  | some decl =>
    intro other primitive noted
    dsimp only at noted
    cases named : Primitive.ofName? (program.names.spelling decl.name) with
    | none =>
      rw [named] at noted
      exact fit other primitive noted
    | some new =>
      rw [named] at noted
      dsimp only at noted
      rw [Std.TreeMap.getElem?_insert] at noted
      split at noted
      · next same =>
        obtain rfl : func = other := by
          obtain ⟨i⟩ := func
          obtain ⟨j⟩ := other
          simpa using same
        obtain rfl := Option.some.inj noted
        exact ⟨decl, found, (Primitive.name_of_ofName? named).symm⟩
      · exact fit other primitive noted

theorem Survey.namesFit_ofProgram (program : Program) :
    (Survey.ofProgram program).NamesFit program := by
  have folded (decls : List TopLevel) (survey : Survey) (fit : survey.NamesFit program) :
      (decls.foldl (Survey.add program) survey).NamesFit program := by
    induction decls generalizing survey with
    | nil => exact fit
    | cons decl decls ih =>
      apply ih
      cases decl with
      | function func => exact fit.addFunction func
      | «variable» var =>
        unfold Survey.add Survey.addVariable
        dsimp only
        split <;> exact fit
  refine folded _ _ fun func primitive noted => ?_
  simp at noted

/-! ### Configurations -/

/-- The static types on which evaluation relies. -/
structure Config.WellTyped (config : Config) : Prop where
  fit : config.program.TypesFit
  /-- A primitive that yields nothing yields zero, which is a number. -/
  nothing : ∀ callee primitive, config.setup.primitive? callee = some primitive →
    primitive = .print ∨ primitive = .free →
    config.types.layer (config.program.resultType callee) = .int ∨
      config.types.layer (config.program.resultType callee) = .void

theorem Config.wellTyped_of_setup {config : Config} (built : config.program.Built)
    (primitives : config.program.PrimitivesFit) (set : config.program.setup = .ok config.setup) :
    config.WellTyped where
  fit := built.typesFit
  nothing callee primitive declared kind := by
    have noted : (Survey.ofProgram config.program).primitives[callee.index]? = some primitive := by
      unfold Program.setup at set
      dsimp only at set
      split at set
      · obtain same := Except.ok.inj set
        rw [← same] at declared
        exact declared
      · cases set
    obtain ⟨decl, found, named⟩ := Survey.namesFit_ofProgram config.program callee primitive noted
    rw [Program.resultType_of_func? found]
    refine primitives callee decl found ?_
    rcases kind with rfl | rfl
    · exact .inl named
    · exact .inr named

end CellC
