import CellC.Proofs.Building

/-!
# Types that have been handed out

A program is grounded if every step of building it refers to types that earlier steps handed out. In
such a program every type that anything has is in the table, and all types below it are. As the
table only grows, what was true of the types at the time when an expression was added is still true
of them later.

## Main definitions

* `TypeTable.Has`: the table has handed out a type
* `Program.Grounded`: programs whose steps mention only such types
* `Program.TypesKnown`: everything in the program has such a type

## Main results

* `Program.Grounded.typesKnown`: in a grounded program all types are known
* `Program.Grounded.origin`: every expression has its type from a grounded program
* `Program.Grounded.base_of_index`: a subscript has the type of an element of its base
-/

namespace CellC

/-- The table has handed out the type. -/
def TypeTable.Has (table : TypeTable) (type : TypeId) : Prop :=
  ∃ layer, table.layers.get? type.index = some layer

instance (table : TypeTable) (type : TypeId) : Decidable (table.Has type) :=
  decidable_of_iff ((table.layers.get? type.index).isSome = true) Option.isSome_iff_exists

/-- The type below a layer has been handed out. -/
def TypeLayer.Fits (table : TypeTable) : TypeLayer → Prop
  | pointer type | array type _ => table.Has type
  | int | char | void => True

instance (table : TypeTable) : (layer : TypeLayer) → Decidable (layer.Fits table)
  | .pointer _ | .array _ _ => inferInstanceAs (Decidable (table.Has _))
  | .int | .char | .void => inferInstanceAs (Decidable True)

/-- The types that are written in an expression of the form have been handed out. -/
def ExprForm.TypesFit (table : TypeTable) : ExprForm → Prop
  | cast _ type _ | sizeOf (.type type) => table.Has type
  | ident _ | intLit _ | charLit _ | strLit _ | paren _ | sizeOf (.expr _) | unary _ _
  | binary _ _ _ | index _ _ | call _ _ => True

instance (table : TypeTable) : (form : ExprForm) → Decidable (form.TypesFit table)
  | .cast _ _ _ | .sizeOf (.type _) => inferInstanceAs (Decidable (table.Has _))
  | .ident _ | .intLit _ | .charLit _ | .strLit _ | .paren _ | .sizeOf (.expr _) | .unary _ _
  | .binary _ _ _ | .index _ _ | .call _ _ => inferInstanceAs (Decidable True)

/-- The types that a step mentions have been handed out. -/
def Construction.TypesFit (table : TypeTable) : Construction → Prop
  | type layer => layer.Fits table
  | prototype _ params ret => (∀ ty ∈ params, table.Has ty) ∧ table.Has ret
  | function _ ty | param _ _ ty | var _ ty _ | global _ ty _ => table.Has ty
  | expr form => form.TypesFit table
  | body _ _ | string _ | stmt _ => True

instance (table : TypeTable) : (step : Construction) → Decidable (step.TypesFit table)
  | .type layer => inferInstanceAs (Decidable (layer.Fits table))
  | .prototype _ _ _ => inferInstanceAs (Decidable (_ ∧ _))
  | .function _ _ | .param _ _ _ | .var _ _ _ | .global _ _ _ =>
    inferInstanceAs (Decidable (table.Has _))
  | .expr form => inferInstanceAs (Decidable (form.TypesFit table))
  | .body _ _ | .string _ | .stmt _ => inferInstanceAs (Decidable True)

namespace Program

/-- The program is built in steps, starting from the empty one, each of which refers to nothing but
what is there. -/
inductive Grounded : Program → Prop
  | empty : Grounded {}
  | step {program : Program} (construction : Construction) :
    Grounded program → construction.Fits program → construction.TypesFit program.types →
    Grounded (construction.run.run program).2

/-- Steps in a row refer to nothing but what is there when it is their turn. -/
def StepsGrounded (program : Program) : List Construction → Prop
  | [] => True
  | step :: steps => step.Fits program ∧ step.TypesFit program.types ∧
    StepsGrounded (step.run.run program).2 steps

instance decidableStepsGrounded : (program : Program) → (steps : List Construction) →
    Decidable (program.StepsGrounded steps)
  | _, [] => inferInstanceAs (Decidable True)
  | program, step :: steps =>
    have := decidableStepsGrounded (step.run.run program).2 steps
    inferInstanceAs (Decidable (step.Fits program ∧ step.TypesFit program.types ∧ _))

/-- Grounded steps keep a program grounded. -/
theorem Grounded.mapM {program : Program} (grounded : program.Grounded)
    {steps : List Construction} (fit : program.StepsGrounded steps) :
    ((steps.mapM Construction.run).run program).2.Grounded := by
  induction steps generalizing program with
  | nil => exact grounded
  | cons step steps ih =>
    rw [List.mapM_cons]
    exact ih (.step step grounded fit.1 fit.2.1) fit.2.2

/-- Steps that refer to nothing but what is there build a grounded program. -/
theorem grounded_ofConstructions {steps : List Construction} (fit : StepsGrounded {} steps) :
    (ofConstructions steps).2.Grounded :=
  Grounded.empty.mapM fit

/-- Everything in the program has a type that has been handed out, and so have the types below. -/
structure TypesKnown (program : Program) : Prop where
  int : program.types.Has .int
  char : program.types.Has .char
  layers : ∀ index layer, program.types.layers.get? index = some layer → layer.Fits program.types
  exprs : ∀ id expr, program.expr? id = some expr → program.types.Has expr.type
  vars : ∀ id decl, program.var? id = some decl → program.types.Has decl.type
  funcs : ∀ id decl, program.func? id = some decl → program.types.Has decl.ret

/-- A type that has been handed out stays handed out. -/
theorem GrowsInto.has {before after : Program} (h : before.GrowsInto after) {type : TypeId}
    (has : before.types.Has type) : after.types.Has type := by
  obtain ⟨layer, known⟩ := has
  exact ⟨layer, h.layers _ _ known⟩

theorem GrowsInto.lt_size {before after : Program} (h : before.GrowsInto after) {id : ExprId}
    (lt : id.index < before.exprs.size) : id.index < after.exprs.size :=
  (Array.getElem?_eq_some_iff.mp (h.exprs id _ (Array.getElem?_eq_getElem lt))).1

/-- What lies below a layer stays handed out. -/
theorem GrowsInto.fits {before after : Program} (h : before.GrowsInto after) {layer : TypeLayer}
    (fits : layer.Fits before.types) : layer.Fits after.types := by
  cases layer with
  | pointer type => exact h.has fits
  | array type len => exact h.has fits
  | int | char | void => trivial

/-- A type that has been handed out keeps its elements, if it has any. -/
theorem GrowsInto.element?_eq {before after : Program} (h : before.GrowsInto after) {type : TypeId}
    (has : before.types.Has type) :
    after.types.element? type = before.types.element? type := by
  obtain ⟨layer, known⟩ := has
  unfold TypeTable.element?
  rw [h.layer_eq known, TypeTable.layer, known, Option.getD_some]

namespace TypesKnown

variable {program : Program} (known : program.TypesKnown)
include known

/-- The type of an expression has been handed out, for a missing expression too. -/
theorem exprType (id : ExprId) : program.types.Has (program.exprType id) := by
  unfold Program.exprType
  cases found : program.expr? id with
  | none => exact known.int
  | some expr => exact known.exprs id expr found

theorem varType (id : VarId) : program.types.Has (program.varType id) := by
  unfold Program.varType
  cases found : program.var? id with
  | none => exact known.int
  | some decl => exact known.vars id decl found

theorem resultType (id : FuncId) : program.types.Has (program.resultType id) := by
  unfold Program.resultType
  cases found : program.func? id with
  | none => exact known.int
  | some decl => exact known.funcs id decl found

/-- The elements of a known type have a known type. -/
theorem element? {type elem : TypeId} (found : program.types.element? type = some elem) :
    program.types.Has elem := by
  unfold TypeTable.element? TypeTable.layer at found
  cases there : program.types.layers.get? type.index with
  | none =>
    rw [there] at found
    cases found
  | some layer =>
    have fits := known.layers _ _ there
    rw [there] at found
    cases layer with
    | pointer pointee => cases found; exact fits
    | array elem' len => cases found; exact fits
    | int | char | void => cases found

/-- The type of the elements of a type has been handed out. -/
theorem elementType (type : TypeId) :
    program.types.Has ((program.types.element? type).getD .int) := by
  cases found : program.types.element? type with
  | none => exact known.int
  | some elem => exact known.element? found

theorem promoted {type : TypeId} (has : program.types.Has type) :
    program.types.Has type.promoted := by
  unfold TypeId.promoted
  split
  · exact known.int
  · exact has

end TypesKnown

end Program

open Program (TypesKnown)

/-! ### Builders -/

namespace Builder

variable {program : Program} (known : program.TypesKnown)
include known

/-- Interning a layer over a known type keeps all types known, and makes its own type known. -/
theorem typesKnown_type (layer : TypeLayer) (fits : layer.Fits program.types) :
    ((type layer).run program).2.TypesKnown ∧
      ((type layer).run program).2.types.Has ((type layer).run program).1 := by
  have grows := (extends_type layer program).toGrowsInto
  refine ⟨?_, layer, Interner.get?_intern_self⟩
  exact {
    int := grows.has known.int
    char := grows.has known.char
    layers := fun index other found => by
      rcases Interner.get?_intern_cases found with old | ⟨rfl, -⟩
      · exact grows.fits (known.layers index other old)
      · exact grows.fits fits
    exprs := fun id expr found => grows.has (known.exprs id expr found)
    vars := fun id decl found => grows.has (known.vars id decl found)
    funcs := fun id decl found => grows.has (known.funcs id decl found) }

/-- A variable of a known type adds no unknown type. -/
theorem typesKnown_var (spelling : String) {type : TypeId} (has : program.types.Has type)
    (init : Option ExprId) : ((var spelling type init).run program).2.TypesKnown :=
  { known with
    vars := fun id decl found => by
      have found : (program.vars.push _)[id.index]? = some decl := found
      rw [Array.getElem?_push] at found
      split at found
      · cases found
        exact has
      · exact known.vars id decl found }

theorem typesKnown_global (spelling : String) {type : TypeId} (has : program.types.Has type)
    (init : Option ExprId) : ((global spelling type init).run program).2.TypesKnown :=
  { typesKnown_var known spelling has init with }

theorem typesKnown_function (spelling : String) {ret : TypeId} (has : program.types.Has ret) :
    ((function spelling ret).run program).2.TypesKnown :=
  { known with
    funcs := fun id decl found => by
      have found : (program.funcs.push _)[id.index]? = some decl := found
      rw [Array.getElem?_push] at found
      split at found
      · cases found
        exact has
      · exact known.funcs id decl found }

/-- A change of a declaration that keeps its result type adds no unknown type. -/
theorem typesKnown_modifyFunc (func : FuncId) {f : FuncDecl → FuncDecl}
    (kept : ∀ decl, (f decl).ret = decl.ret) :
    ((modifyFunc func f).run program).2.TypesKnown :=
  { known with
    funcs := fun id decl found => by
      have found : (program.funcs.modify func.index f)[id.index]? = some decl := found
      rw [Array.getElem?_modify] at found
      split at found
      · obtain ⟨old, there, rfl⟩ := Option.map_eq_some_iff.mp found
        rw [kept]
        exact known.funcs id old there
      · exact known.funcs id decl found }

theorem typesKnown_param (func : FuncId) (spelling : String) {type : TypeId}
    (has : program.types.Has type) : ((param func spelling type).run program).2.TypesKnown :=
  typesKnown_modifyFunc (typesKnown_var known spelling has none) func fun _ => rfl

theorem typesKnown_anonymousParams (func : FuncId) (start : Nat) {types : List TypeId}
    (has : ∀ type ∈ types, program.types.Has type) :
    ((anonymousParams func start types).run program).2.TypesKnown := by
  induction types generalizing program start with
  | nil => exact known
  | cons type types ih =>
    have first := typesKnown_param known func s!"arg{start}" (has type List.mem_cons_self)
    have grows := (extends_param func s!"arg{start}" type program).toGrowsInto
    exact ih first (start + 1) fun other member =>
      grows.has (has other (List.mem_cons_of_mem _ member))

/-- A prototype adds no unknown type. -/
theorem typesKnown_prototype (spelling : String) {params : List TypeId} {ret : TypeId}
    (has : ∀ type ∈ params, program.types.Has type) (has' : program.types.Has ret) :
    ((prototype spelling params ret).run program).2.TypesKnown :=
  typesKnown_anonymousParams (typesKnown_function known spelling has') _ 0 has

/-! ### Static types -/

theorem typesKnown_pointerType? {operand : TypeId} (has : program.types.Has operand) :
    ((pointerType? operand).run program).2.TypesKnown ∧
      ∀ pointer, ((pointerType? operand).run program).1 = some pointer →
        ((pointerType? operand).run program).2.types.Has pointer := by
  unfold pointerType?
  simp only [StateT.run_bind, StateT.run_get, pure_bind]
  cases layer : program.types.layer operand with
  | pointer pointee => exact ⟨known, fun pointer same => Option.some.inj same ▸ has⟩
  | int | char | void => exact ⟨known, fun pointer same => by cases same⟩
  | array elem len =>
    have element : program.types.element? operand = some elem := by
      unfold TypeTable.element?
      rw [layer]
    obtain ⟨after, there⟩ := typesKnown_type known (.pointer elem) (known.element? element)
    exact ⟨after, fun pointer same => Option.some.inj same ▸ there⟩

/-- The type of a binary operation is known, made on the way or not. -/
theorem typesKnown_binaryType (op : BinaryOp) {left right : TypeId}
    (has : program.types.Has left) (has' : program.types.Has right) :
    ((binaryType op left right).run program).2.TypesKnown ∧
      ((binaryType op left right).run program).2.types.Has
        ((binaryType op left right).run program).1 := by
  cases op with
  | assign => exact ⟨known, has⟩
  | lt | gt | le | ge | eq | ne | logicalAnd | logicalOr => exact ⟨known, known.int⟩
  | mul | div | rem | bitAnd | bitOr => exact ⟨known, known.promoted has⟩
  | sub =>
    obtain ⟨knownAfter, there⟩ := typesKnown_pointerType? known has
    have grows := (extends_pointerType? left program).toGrowsInto
    rcases turned : (pointerType? left).run program with ⟨pointer, after⟩
    have typed : (binaryType .sub left right).run program =
        (pointer.getD left.promoted, after) := by
      simp only [binaryType, StateT.run_bind, turned]
      rfl
    rw [turned] at knownAfter there grows
    rw [typed]
    cases pointer with
    | some pointer => exact ⟨knownAfter, there pointer rfl⟩
    | none => exact ⟨knownAfter, knownAfter.promoted (grows.has has)⟩
  | add =>
    obtain ⟨knownAfter, there⟩ := typesKnown_pointerType? known has
    have grows := (extends_pointerType? left program).toGrowsInto
    rcases turned : (pointerType? left).run program with ⟨_ | pointer, after⟩ <;>
      rw [turned] at knownAfter there grows
    · -- The operand on the right may still be a pointer or an array.
      obtain ⟨knownLater, there'⟩ := typesKnown_pointerType? knownAfter (grows.has has')
      have grows' := (extends_pointerType? right after).toGrowsInto
      rcases turned' : (pointerType? right).run after with ⟨pointer, later⟩
      have typed : (binaryType .add left right).run program =
          (pointer.getD left.promoted, later) := by
        simp only [binaryType, StateT.run_bind, turned]
        exact congrArg (fun (p : Option TypeId × Program) => (p.1.getD left.promoted, p.2)) turned'
      rw [turned'] at knownLater there' grows'
      rw [typed]
      cases pointer with
      | some pointer => exact ⟨knownLater, there' pointer rfl⟩
      | none => exact ⟨knownLater, knownLater.promoted (grows'.has (grows.has has))⟩
    · have typed : (binaryType .add left right).run program = (pointer, after) := by
        simp only [binaryType, StateT.run_bind, turned]
        rfl
      rw [typed]
      exact ⟨knownAfter, there pointer rfl⟩

/-- The static type of a form is known, made on the way or not. -/
theorem typesKnown_staticType {form : ExprForm} (fits : form.TypesFit program.types) :
    ((staticType form).run program).2.TypesKnown ∧
      ((staticType form).run program).2.types.Has ((staticType form).run program).1 := by
  cases form with
  | ident var => exact ⟨known, known.varType var⟩
  | intLit n | sizeOf operand => exact ⟨known, known.int⟩
  | charLit byte => exact ⟨known, known.char⟩
  | strLit name => exact typesKnown_type known (.pointer .char) known.char
  | paren inner => exact ⟨known, known.exprType inner⟩
  | binary op left right =>
    exact typesKnown_binaryType known op (known.exprType left) (known.exprType right)
  | index base index => exact ⟨known, known.elementType _⟩
  | call callee args => exact ⟨known, known.resultType callee⟩
  | cast conversion target operand => exact ⟨known, fits⟩
  | unary op operand =>
    cases op with
    | deref => exact ⟨known, known.elementType _⟩
    | addrOf => exact typesKnown_type known (.pointer _) (known.exprType operand)
    | not => exact ⟨known, known.int⟩
    | neg | plus | bitNot => exact ⟨known, known.promoted (known.exprType operand)⟩

/-- A new expression adds no unknown type. -/
theorem typesKnown_expr {form : ExprForm} (fits : form.TypesFit program.types) :
    ((expr form).run program).2.TypesKnown := by
  obtain ⟨after, has⟩ := typesKnown_staticType known fits
  exact { after with
    exprs := fun id expr found => by
      have found : (((staticType form).run program).2.exprs.push _)[id.index]? = some expr := found
      rw [Array.getElem?_push] at found
      split at found
      · cases found
        exact has
      · exact after.exprs id expr found }

end Builder

namespace Program

/-- A step that mentions known types only leads to a program whose types are known. -/
theorem TypesKnown.run {program : Program} (known : program.TypesKnown)
    {construction : Construction} (fits : construction.TypesFit program.types) :
    (construction.run.run program).2.TypesKnown := by
  cases construction with
  | type layer => exact (Builder.typesKnown_type known layer fits).1
  | function name ret => exact Builder.typesKnown_function known name fits
  | prototype name params ret => exact Builder.typesKnown_prototype known name fits.1 fits.2
  | param func name type => exact Builder.typesKnown_param known func name fits
  | body func start => exact Builder.typesKnown_modifyFunc known func fun _ => rfl
  | var name type init => exact Builder.typesKnown_var known name fits init
  | global name type init => exact Builder.typesKnown_global known name fits init
  | expr form => exact Builder.typesKnown_expr known fits
  | string text =>
    have named : ((Builder.name text).run program).2.TypesKnown := { known with }
    have fits : ExprForm.TypesFit ((Builder.name text).run program).2.types
        (.strLit ((Builder.name text).run program).1) := trivial
    exact Builder.typesKnown_expr named fits
  | stmt form => exact { known with }

namespace Grounded

variable {program : Program} (grounded : program.Grounded)
include grounded

theorem built : program.Built := by
  induction grounded with
  | empty => exact .refl
  | step construction _ fits _ ih => exact .step construction ih fits

/-- In a grounded program all types are known. -/
theorem typesKnown : program.TypesKnown := by
  induction grounded with
  | empty =>
    exact {
      int := ⟨.int, rfl⟩
      char := ⟨.char, rfl⟩
      layers := fun index layer found => by
        match index, found with
        | 0, found | 1, found | 2, found => cases found; trivial
      exprs := fun id expr found => by simp [expr?] at found
      vars := fun id decl found => by simp [var?] at found
      funcs := fun id decl found => by simp [func?] at found }
  | step construction _ _ fits ih => exact ih.run fits

/-- Every expression but a string literal has its type from a grounded program. -/
theorem origin {id : ExprId} {form : ExprForm} {type : TypeId}
    (found : program.expr? id = some ⟨form, type⟩) (other : ∀ name, form ≠ .strLit name) :
    ∃ before, before.Grounded ∧ Origin {} program before form type := by
  induction grounded with
  | empty => simp [expr?] at found
  | @step program construction earlier fits _ ih =>
    have older (found' : program.expr? id = some ⟨form, type⟩) :
        ∃ before, before.Grounded ∧
          Origin {} (construction.run.run program).2 before form type := by
      obtain ⟨before, sound, origin⟩ := ih found'
      exact ⟨before, sound,
        { origin with grows := origin.grows.trans (growsInto_run construction _) }⟩
    obtain grown | ⟨beside, last, grown, appended, given⟩ := run_cases construction program
    · apply older
      unfold expr? at found ⊢
      rwa [grown.same] at found
    · rw [appended] at found older ⊢
      unfold expr? at found
      rw [Builder.exprs_run_expr, grown.same, Array.getElem?_push] at found
      split at found
      · -- The expression is the one that the step appends, which is no string literal.
        cases found
        obtain ⟨rfl, rfl⟩ | ⟨name, literal⟩ := given
        · exact ⟨beside, earlier, earlier.built, fits, rfl, Builder.growsInto_expr form beside⟩
        · exact absurd literal (other name)
      · exact older found

/-- A subscript has a base that is there, and the type of its elements or `int` if it has none. -/
theorem base_of_index {x base index : ExprId} {type : TypeId}
    (found : program.expr? x = some ⟨.index base index, type⟩) :
    base.index < program.exprs.size ∧
      type = (program.types.element? (program.exprType base)).getD .int := by
  obtain ⟨before, earlier, origin⟩ := grounded.origin found (by simp)
  have there : base.index < before.exprs.size := origin.fits
  refine ⟨origin.growsInto.lt_size there, ?_⟩
  rw [origin.growsInto.exprType there,
    origin.growsInto.element?_eq (earlier.typesKnown.exprType base)]
  exact origin.type

/-- What a pointer or an array is followed to has the type of its elements, and `int` if it has
none. -/
theorem type_of_deref {x operand : ExprId} {type : TypeId}
    (found : program.expr? x = some ⟨.unary .deref operand, type⟩) :
    type = (program.types.element? (program.exprType operand)).getD .int := by
  obtain ⟨before, earlier, origin⟩ := grounded.origin found (by simp)
  have there : operand.index < before.exprs.size := origin.fits
  rw [origin.growsInto.exprType there,
    origin.growsInto.element?_eq (earlier.typesKnown.exprType operand)]
  exact origin.type

end Grounded

end Program

end CellC
