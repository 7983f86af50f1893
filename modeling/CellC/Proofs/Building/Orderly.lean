import CellC.Proofs.Building.Keeping

/-!
# Orderly programs

If every step of building a program refers only to numbers that earlier steps handed out, then every
reference in the program leads to something that is there, and expressions and statements refer to
smaller numbers than their own, so that no tree contains itself.

## Main definitions

* `Program.Intact`: every reference leads somewhere, and trees lead downwards
* `Program.OrderlyTo`, `Program.Orderly`: programs built by steps that refer to what is there

## Main results

* `Program.OrderlyTo.keeps`: orderly steps keep whatever is there
* `Program.OrderlyTo.intact`: orderly steps keep a program intact
* `Program.Orderly.grounded`: an orderly program is grounded
-/

namespace CellC

/-! ### Intact programs -/

namespace Program

/-- Every reference in `program` leads to something in `whole`; those of expressions to expressions
and of statements to statements lead to smaller numbers. -/
structure IntactIn (program whole : Program) : Prop where
  exprs : Each program.exprs fun i expr => ∀ reference ∈ expr.form.references,
    whole.Has reference ∧ ∀ operand, reference = .expr operand → operand.index < i
  stmts : Each program.stmts fun i stmt => ∀ reference ∈ stmt.references,
    whole.Has reference ∧ ∀ child, reference = .stmt child → child.index < i
  vars : Each program.vars fun _ decl => ∀ reference ∈ decl.references, whole.Has reference
  funcs : Each program.funcs fun _ decl => ∀ reference ∈ decl.references, whole.Has reference
  topLevel : Each program.topLevel fun _ decl => whole.Has decl.reference

/-- Every reference in the program leads to something that is there, and trees lead downwards. -/
def Intact (program : Program) : Prop := program.IntactIn program

/-- What is intact with respect to a program stays so when that program retains what it has. -/
theorem IntactIn.mono {program whole later : Program} (intact : program.IntactIn whole)
    (retains : whole.Retains later) : program.IntactIn later where
  exprs := intact.exprs.mono fun _ _ leads reference member =>
    ⟨retains _ (leads reference member).1, (leads reference member).2⟩
  stmts := intact.stmts.mono fun _ _ leads reference member =>
    ⟨retains _ (leads reference member).1, (leads reference member).2⟩
  vars := intact.vars.mono fun _ _ leads reference member => retains _ (leads reference member)
  funcs := intact.funcs.mono fun _ _ leads reference member => retains _ (leads reference member)
  topLevel := intact.topLevel.mono fun _ _ leads => retains _ leads

/-- A program without anything in it refers to nothing. -/
theorem intact_empty : Intact {} where
  exprs := .empty _
  stmts := .empty _
  vars := .empty _
  funcs := .empty _
  topLevel := .empty _

end Program

open Program (Intact)

namespace Builder

variable {program : Program} (intact : program.Intact)
include intact

theorem intact_type (layer : TypeLayer) : ((type layer).run program).2.Intact :=
  { intact.mono (keeps_type layer program).retains with }

theorem intact_name (spelling : String) : ((name spelling).run program).2.Intact :=
  { intact.mono (keeps_name spelling program).retains with }

theorem intact_var (spelling : String) {type : TypeId} {init : Option ExprId}
    (has : ∀ reference ∈ Reference.type type :: init.toList.map .expr, program.Has reference) :
    ((var spelling type init).run program).2.Intact := by
  have retains := (keeps_var spelling type init program).retains
  have old := intact.mono retains
  exact { old with vars := old.vars.push fun reference member => retains _ (has reference member) }

/-- A declaration may be listed once it is there. -/
theorem intact_topLevel {decl : TopLevel} (has : program.Has decl.reference) :
    ((topLevel decl).run program).2.Intact :=
  have old : program.IntactIn ((topLevel decl).run program).2 := { intact with }
  { old with topLevel := old.topLevel.push has }

theorem intact_global (spelling : String) {type : TypeId} {init : Option ExprId}
    (has : ∀ reference ∈ Reference.type type :: init.toList.map .expr, program.Has reference) :
    ((global spelling type init).run program).2.Intact :=
  intact_topLevel (intact_var intact spelling has) (lt_size_push program.vars _)

theorem intact_function (spelling : String) {ret : TypeId} (has : program.types.Has ret) :
    ((function spelling ret).run program).2.Intact := by
  have retains := (keeps_function spelling ret program).retains
  have old := intact.mono retains
  exact { old with
    funcs := old.funcs.push fun reference member => by
      obtain rfl := List.mem_singleton.mp member
      exact retains (.type ret) has
    topLevel := old.topLevel.push (lt_size_push program.funcs _) }

/-- A function may be changed to refer to whatever is there. -/
theorem intact_modifyFunc (func : FuncId) {f : FuncDecl → FuncDecl}
    (kept : ∀ decl, (f decl).name = decl.name ∧ (f decl).ret = decl.ret)
    (has : ∀ decl reference, reference ∈ (f decl).references →
      reference ∈ decl.references ∨ program.Has reference) :
    ((modifyFunc func f).run program).2.Intact := by
  have retains := (keeps_modifyFunc func kept program).retains
  have old := intact.mono retains
  exact { old with
    funcs := old.funcs.modify fun _ decl leads reference member =>
      (has decl reference member).elim (leads reference) (retains reference) }

theorem intact_param (func : FuncId) (spelling : String) {type : TypeId}
    (has : program.types.Has type) : ((param func spelling type).run program).2.Intact := by
  have declared : ((var spelling type none).run program).2.Intact := by
    refine intact_var intact spelling fun reference member => ?_
    obtain rfl := List.mem_singleton.mp member
    exact has
  have fresh : ((var spelling type none).run program).2.Has
      (.var ((var spelling type none).run program).1) := lt_size_push program.vars _
  refine intact_modifyFunc declared func
    (f := fun decl => { decl with params := decl.params ++ [_] }) (fun _ => ⟨rfl, rfl⟩)
    fun decl reference member => ?_
  simp only [FuncDecl.references, List.map_append, List.mem_append, List.mem_cons, List.map_cons,
    List.map_nil, List.not_mem_nil, or_false] at member ⊢
  rcases member with (ret | old | rfl) | body
  · exact .inl (.inl (.inl ret))
  · exact .inl (.inl (.inr old))
  · exact .inr fresh
  · exact .inl (.inr body)

/-- A statement that is there may become the body of a function. -/
theorem intact_body (func : FuncId) {start : StmtId} (has : program.Has (.stmt start)) :
    ((body func start).run program).2.Intact := by
  refine intact_modifyFunc intact func (f := fun decl => { decl with body := some start })
    (fun _ => ⟨rfl, rfl⟩) fun decl reference member => ?_
  simp only [FuncDecl.references, List.mem_append, List.mem_cons, Option.toList_some,
    List.map_cons, List.map_nil, List.not_mem_nil, or_false] at member ⊢
  rcases member with old | rfl
  · exact .inl (.inl old)
  · exact .inr has

theorem intact_anonymousParams (func : FuncId) (start : Nat) {types : List TypeId}
    (has : ∀ type ∈ types, program.types.Has type) :
    ((anonymousParams func start types).run program).2.Intact := by
  induction types generalizing program start with
  | nil => exact intact
  | cons type types ih =>
    have first := intact_param intact func s!"arg{start}" (has type List.mem_cons_self)
    exact ih first (start + 1) fun other member => has other (List.mem_cons_of_mem _ member)

theorem intact_prototype (spelling : String) {params : List TypeId} {ret : TypeId}
    (has : ∀ type ∈ params, program.types.Has type) (has' : program.types.Has ret) :
    ((prototype spelling params ret).run program).2.Intact :=
  intact_anonymousParams (intact_function intact spelling has') _ 0 has

/-- An expression may refer to whatever is there. -/
theorem intact_expr (form : ExprForm) (has : ∀ reference ∈ form.references,
    program.Has reference) : ((expr form).run program).2.Intact := by
  have retains := (keeps_expr form program).retains
  obtain ⟨type, types, same⟩ := run_expr form program
  rw [same] at retains ⊢
  have old := intact.mono retains
  exact { old with
    exprs := old.exprs.push fun reference member => ⟨retains _ (has reference member),
      fun operand same => by subst same; exact has _ member⟩ }

theorem intact_stmt {form : Stmt} (has : ∀ reference ∈ form.references,
    program.Has reference) : ((stmt form).run program).2.Intact := by
  have retains := (keeps_stmt form program).retains
  have old := intact.mono retains
  exact { old with
    stmts := old.stmts.push fun reference member => ⟨retains _ (has reference member),
      fun child same => by subst same; exact has _ member⟩ }

end Builder

/-- An orderly step keeps a program intact. -/
theorem Program.Intact.run {program : Program} (intact : program.Intact)
    {construction : Construction} (orderly : construction.Orderly program) :
    (construction.run.run program).2.Intact := by
  have fits := orderly.typesFit
  cases construction with
  | type layer => exact Builder.intact_type intact layer
  | function name ret => exact Builder.intact_function intact name fits
  | prototype name params ret => exact Builder.intact_prototype intact name fits.1 fits.2
  | param func name type => exact Builder.intact_param intact func name fits
  | body func start =>
    have has := orderly (.stmt start) (by simp [Construction.references])
    exact Builder.intact_body intact func has
  | var name type init => exact Builder.intact_var intact name orderly
  | global name type init => exact Builder.intact_global intact name orderly
  | expr form => exact Builder.intact_expr intact form orderly
  | string text =>
    refine Builder.intact_expr (Builder.intact_name intact text)
      (.strLit ((Builder.name text).run program).1) fun reference member => ?_
    obtain rfl := List.mem_singleton.mp member
    exact Builder.has_name text program
  | stmt form => exact Builder.intact_stmt intact orderly

/-! ### Orderly programs -/

namespace Program

/-- Orderly steps lead from one program to the other. -/
inductive OrderlyTo (early : Program) : Program → Prop
  | refl : OrderlyTo early early
  | step {program : Program} (construction : Construction) :
    OrderlyTo early program → construction.Orderly program →
    OrderlyTo early (construction.run.run program).2

/-- The program is built by orderly steps, starting from the empty one. -/
def Orderly (program : Program) : Prop := OrderlyTo {} program

/-- Steps in a row are orderly when it is their turn. -/
def StepsOrderly (program : Program) : List Construction → Prop
  | [] => True
  | step :: steps => step.Orderly program ∧ StepsOrderly (step.run.run program).2 steps

instance decidableStepsOrderly : (program : Program) → (steps : List Construction) →
    Decidable (program.StepsOrderly steps)
  | _, [] => inferInstanceAs (Decidable True)
  | program, step :: steps =>
    have := decidableStepsOrderly (step.run.run program).2 steps
    inferInstanceAs (Decidable (step.Orderly program ∧ _))

namespace OrderlyTo

variable {early program last : Program}

/-- Orderly construction may be continued. -/
theorem trans (h : early.OrderlyTo program) (h' : program.OrderlyTo last) :
    early.OrderlyTo last := by
  induction h' with
  | refl => exact h
  | step construction _ orderly ih => exact .step construction ih orderly

theorem mapM {steps : List Construction} (orderly : program.StepsOrderly steps) :
    program.OrderlyTo ((steps.mapM Construction.run).run program).2 := by
  induction steps generalizing program with
  | nil => exact .refl
  | cons step steps ih =>
    rw [List.mapM_cons]
    exact (OrderlyTo.step step .refl orderly.1).trans (ih orderly.2)

/-- Orderly construction keeps what there is. -/
theorem keeps (later : early.OrderlyTo program) : early.Keeps program := by
  induction later with
  | refl => exact .refl early
  | step construction _ _ ih => exact ih.trans (keeps_run construction _)

/-- Orderly steps keep a program intact. -/
theorem intact (later : early.OrderlyTo program) (intact : early.Intact) : program.Intact := by
  induction later with
  | refl => exact intact
  | step _ _ orderly ih => exact ih.run orderly

theorem growsTo (later : early.OrderlyTo program) (known : early.TypesKnown) :
    program.TypesKnown ∧ early.types.GrowsTo program.types := by
  induction later with
  | refl => exact ⟨known, .refl⟩
  | step _ _ orderly ih =>
    exact ⟨ih.1.run orderly.typesFit, ih.2.trans (types_growsTo_run ih.1 orderly.typesFit)⟩

end OrderlyTo

/-- Orderly steps in a row build an orderly program. -/
theorem orderly_ofConstructions {steps : List Construction} (orderly : StepsOrderly {} steps) :
    (ofConstructions steps).2.Orderly :=
  .mapM orderly

namespace Orderly

variable {program : Program} (orderly : program.Orderly)
include orderly

/-- An orderly program is grounded. -/
theorem grounded : program.Grounded := by
  induction orderly with
  | refl => exact .empty
  | step construction _ orderly ih => exact .step construction ih orderly.fits orderly.typesFit

/-- A program that was built in an orderly way is intact. -/
theorem intact : program.Intact := OrderlyTo.intact orderly intact_empty

end Orderly

end Program

end CellC
