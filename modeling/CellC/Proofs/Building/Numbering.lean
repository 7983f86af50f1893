import CellC.Proofs.Building.Orderly

/-!
# Numbering

The numbers that the steps of building a program hand out count up from zero in each of the
program's lists: no number is skipped, and none is handed out twice.

## Main definitions

* `NumberedList`: the lists of a program that are appended to, one entry at a time
* `Program.handedOut`: all that steps in a row hand out

## Main results

* `Program.handedOut_eq_range`: what is handed out is numbered consecutively
-/

namespace CellC

/-- The lists of a program whose entries are numbered in the order in which they are added. -/
inductive NumberedList
  | exprs
  | stmts
  | vars
  | funcs
deriving DecidableEq

/-- The number of entries in a list of the program. -/
def Program.count (program : Program) : NumberedList → Nat
  | .exprs => program.exprs.size
  | .stmts => program.stmts.size
  | .vars => program.vars.size
  | .funcs => program.funcs.size

/-- The position in a list that a reference leads to, if it leads to that list. -/
def Reference.position? : NumberedList → Reference → Option Nat
  | .exprs, .expr id => some id.index
  | .stmts, .stmt id => some id.index
  | .vars, .var id => some id.index
  | .funcs, .func id => some id.index
  | _, _ => none

/-- What a step hands out as its result. -/
def Product.references : Product → List Reference
  | type id => [.type id]
  | func id => [.func id]
  | var id => [.var id]
  | expr id => [.expr id]
  | stmt id => [.stmt id]
  | nothing => []

/-- What a step hands out: its result, and the parameters of a prototype, which are found in its
declaration. -/
def Construction.handsOut (program : Program) (step : Construction) : List Reference :=
  let (product, after) := step.run.run program
  match step, product with
  | prototype _ _ _, .func id =>
    .func id :: (((after.func? id).map FuncDecl.params).getD []).map .var
  | _, product => product.references

namespace Program

/-- The program after further steps. -/
def after (program : Program) (steps : List Construction) : Program :=
  ((steps.mapM Construction.run).run program).2

theorem after_cons (program : Program) (step : Construction) (steps : List Construction) :
    program.after (step :: steps) = (step.run.run program).2.after steps := by
  unfold after
  rw [List.mapM_cons]
  rfl

/-- Steps in sequence are carried out in sequence. -/
theorem after_append (program : Program) (steps further : List Construction) :
    program.after (steps ++ further) = (program.after steps).after further := by
  induction steps generalizing program with
  | nil => rfl
  | cons step steps ih => rw [List.cons_append, after_cons, after_cons, ih]

/-- Steps in sequence are orderly if the first ones are and the others are for what they lead to. -/
theorem stepsOrderly_append {program : Program} {steps further : List Construction} :
    program.StepsOrderly (steps ++ further) ↔
      program.StepsOrderly steps ∧ (program.after steps).StepsOrderly further := by
  induction steps generalizing program with
  | nil => exact (iff_of_eq (true_and _)).symm
  | cons step steps ih =>
    rw [List.cons_append, after_cons]
    exact (and_congr_right fun _ => ih).trans and_assoc.symm

/-- All that steps in a row hand out. -/
def handedOut (program : Program) : List Construction → List Reference
  | [] => []
  | step :: steps => step.handsOut program ++ handedOut (step.run.run program).2 steps

/-- The positions are those that were added to the list from one program to the other, in order. -/
def Counts (list : NumberedList) (before after : Program) (references : List Reference) : Prop :=
  before.count list ≤ after.count list ∧
    references.filterMap (Reference.position? list) =
      List.range' (before.count list) (after.count list - before.count list)

namespace Counts

variable {list : NumberedList} {first second third : Program}
  {references references' : List Reference}

/-- Numbers handed out in sequence count up in sequence. -/
theorem append (h : Counts list first second references)
    (h' : Counts list second third references') :
    Counts list first third (references ++ references') := by
  refine ⟨Nat.le_trans h.1 h'.1, ?_⟩
  have le := h.1
  have le' := h'.1
  rw [List.filterMap_append, h.2, h'.2]
  obtain ⟨m, hm⟩ := Nat.exists_eq_add_of_le le
  obtain ⟨n, hn⟩ := Nat.exists_eq_add_of_le le'
  rw [hn, hm, Nat.add_sub_cancel_left, Nat.add_sub_cancel_left, List.range'_append_1]
  congr 1
  omega

/-- The program has as many entries as before, and no position in the list is handed out. -/
theorem same (count : second.count list = first.count list)
    (other : references.filterMap (Reference.position? list) = []) :
    Counts list first second references := by
  refine ⟨Nat.le_of_eq count.symm, ?_⟩
  rw [other, count, Nat.sub_self]
  rfl

/-- The program has one entry more, whose position is handed out. -/
theorem one (count : second.count list = first.count list + 1)
    (last : references.filterMap (Reference.position? list) = [first.count list]) :
    Counts list first second references := by
  refine ⟨by omega, ?_⟩
  rw [last, count, Nat.add_sub_cancel_left]
  rfl

end Counts

end Program

open Program (Counts)

namespace Builder

/-- Parameters are appended one after the other, and nothing else is. -/
theorem run_anonymousParams (func : FuncId) (start : Nat) (types : List TypeId)
    {program : Program} {decl : FuncDecl} (found : program.func? func = some decl) :
    ∃ names vars funcs, ((anonymousParams func start types).run program).2 =
        { program with names, vars, funcs } ∧
      vars.size = program.vars.size + types.length ∧ funcs.size = program.funcs.size ∧
      funcs[func.index]? = some { decl with
        params := decl.params ++ (List.range' program.vars.size types.length).map VarId.mk } := by
  induction types generalizing start program decl with
  | nil =>
    refine ⟨_, _, _, rfl, rfl, rfl, ?_⟩
    simpa [Program.func?] using found
  | cons type types ih =>
    have size : ((param func s!"arg{start}" type).run program).2.vars.size =
        program.vars.size + 1 := Array.size_push _
    have found' : ((param func s!"arg{start}" type).run program).2.func? func =
        some { decl with params := decl.params ++ [⟨program.vars.size⟩] } := by
      show (program.funcs.modify func.index _)[func.index]? = _
      have found : program.funcs[func.index]? = some decl := found
      rw [Array.getElem?_modify, if_pos rfl, found]
      rfl
    obtain ⟨names, vars, funcs, same, vars_size, funcs_size, last⟩ := ih (start + 1) found'
    refine ⟨names, vars, funcs, same, ?_, ?_, ?_⟩
    · rw [vars_size, size, List.length_cons]
      omega
    · rw [funcs_size]
      exact Array.size_modify
    · rw [last, size]
      simp [List.range'_succ]

theorem counts_expr (list : NumberedList) (form : ExprForm) (program : Program) :
    Counts list program ((expr form).run program).2 [.expr ((expr form).run program).1] := by
  obtain ⟨type, types, same⟩ := run_expr form program
  rw [same]
  cases list with
  | stmts | vars | funcs => exact .same rfl rfl
  | exprs => exact .one (Array.size_push _) rfl

theorem filterMap_position?_var (list : NumberedList) (ids : List Nat) :
    ((ids.map VarId.mk).map Reference.var).filterMap (Reference.position? list) =
      if list = .vars then ids else [] := by
  induction ids with
  | nil => cases list <;> rfl
  | cons id ids ih =>
    simp only [List.map_cons, List.filterMap_cons, ih]
    cases list <;> rfl

/-- A prototype hands out a number for the function and one for each of its parameters. -/
theorem counts_prototype (list : NumberedList) (spelling : String) (params : List TypeId)
    (ret : TypeId) (program : Program) :
    Counts list program ((prototype spelling params ret).run program).2
      (Construction.handsOut program (.prototype spelling params ret)) := by
  have found : ((function spelling ret).run program).2.func? ⟨program.funcs.size⟩ =
      some ⟨((name spelling).run program).1, [], ret, none⟩ := Array.getElem?_push_size
  obtain ⟨names, vars, funcs, same, vars_size, funcs_size, last⟩ :=
    run_anonymousParams ⟨program.funcs.size⟩ 0 params found
  have after : ((prototype spelling params ret).run program).2 =
      { ((function spelling ret).run program).2 with names, vars, funcs } := same
  have out : Construction.handsOut program (.prototype spelling params ret) =
      .func ⟨program.funcs.size⟩ ::
        ((List.range' program.vars.size params.length).map VarId.mk).map .var := by
    show Reference.func ⟨program.funcs.size⟩ ::
      (((((prototype spelling params ret).run program).2.func? ⟨program.funcs.size⟩).map
        FuncDecl.params).getD []).map .var = _
    rw [after, Program.func?, last]
    rfl
  rw [out, after]
  have positions := filterMap_position?_var list (List.range' program.vars.size params.length)
  cases list with
  | exprs | stmts => exact .same rfl positions
  | funcs =>
    have size : funcs.size = program.funcs.size + 1 := funcs_size.trans (Array.size_push _)
    exact .one size (congrArg (program.funcs.size :: ·) positions)
  | vars =>
    have size : vars.size = program.vars.size + params.length := vars_size
    refine ⟨Nat.le.intro size.symm, positions.trans ?_⟩
    show List.range' program.vars.size params.length =
      List.range' program.vars.size (vars.size - program.vars.size)
    rw [size, Nat.add_sub_cancel_left]

end Builder

namespace Program

/-- A step hands out the numbers that are next in line. -/
theorem counts_run (list : NumberedList) (step : Construction) (program : Program) :
    Counts list program (step.run.run program).2 (step.handsOut program) := by
  cases step with
  | type layer => cases list <;> exact .same rfl rfl
  | function name ret =>
    cases list with
    | exprs | stmts | vars => exact .same rfl rfl
    | funcs => exact .one (Array.size_push _) rfl
  | param func name type =>
    cases list with
    | exprs | stmts => exact .same rfl rfl
    | funcs => exact .same Array.size_modify rfl
    | vars => exact .one (Array.size_push _) rfl
  | body func start =>
    cases list with
    | exprs | stmts | vars => exact .same rfl rfl
    | funcs => exact .same Array.size_modify rfl
  | var name type init | global name type init =>
    cases list with
    | exprs | stmts | funcs => exact .same rfl rfl
    | vars => exact .one (Array.size_push _) rfl
  | stmt form =>
    cases list with
    | exprs | vars | funcs => exact .same rfl rfl
    | stmts => exact .one (Array.size_push _) rfl
  | expr form => exact Builder.counts_expr list form program
  | string text =>
    exact Builder.counts_expr list (.strLit ((Builder.name text).run program).1)
      ((Builder.name text).run program).2
  | prototype name params ret => exact Builder.counts_prototype list name params ret program

/-- Steps in a row hand out the numbers that are next in line. -/
theorem counts_after (list : NumberedList) (steps : List Construction) (program : Program) :
    Counts list program (program.after steps) (program.handedOut steps) := by
  induction steps generalizing program with
  | nil => exact .same rfl rfl
  | cons step steps ih =>
    rw [after_cons]
    exact (counts_run list step program).append (ih _)

/-- What is handed out is numbered consecutively, from zero on. -/
theorem handedOut_eq_range (list : NumberedList) (steps : List Construction) :
    (handedOut {} steps).filterMap (Reference.position? list) =
      List.range ((after {} steps).count list) := by
  have empty : count {} list = 0 := by cases list <;> rfl
  have counted := (counts_after list steps {}).2
  rw [empty, Nat.sub_zero, ← List.range_eq_range'] at counted
  exact counted

/-- A number below the length of its list leads somewhere. -/
theorem has_of_position? {program : Program} {reference : Reference} {list : NumberedList} {i : Nat}
    (leads : reference.position? list = some i) (lt : i < program.count list) :
    program.Has reference := by
  cases list <;> cases reference <;> cases leads <;> exact lt

/-- What a step hands out is there afterwards. -/
theorem has_of_handsOut {program : Program} {step : Construction} {reference : Reference}
    (member : reference ∈ step.handsOut program) :
    (step.run.run program).2.Has reference := by
  have numbered (list : NumberedList) {i : Nat} (leads : reference.position? list = some i) :
      (step.run.run program).2.Has reference := by
    obtain ⟨le, counted⟩ := counts_run list step program
    have position := List.mem_filterMap.mpr ⟨reference, member, leads⟩
    rw [counted, List.mem_range'_1] at position
    exact has_of_position? leads (by omega)
  cases step with
  | type layer =>
    obtain rfl := List.mem_singleton.mp member
    exact ⟨layer, Interner.get?_intern_self⟩
  | function =>
    obtain rfl := List.mem_singleton.mp member
    exact numbered .funcs rfl
  | prototype =>
    rcases List.mem_cons.mp member with rfl | param
    · exact numbered .funcs rfl
    · obtain ⟨id, -, rfl⟩ := List.mem_map.mp param
      exact numbered .vars rfl
  | param | var | global =>
    obtain rfl := List.mem_singleton.mp member
    exact numbered .vars rfl
  | body => cases member
  | expr | string =>
    obtain rfl := List.mem_singleton.mp member
    exact numbered .exprs rfl
  | stmt =>
    obtain rfl := List.mem_singleton.mp member
    exact numbered .stmts rfl

/-- Orderly or not, steps keep what there is. -/
theorem keeps_after (program : Program) (steps : List Construction) :
    program.Keeps (program.after steps) := by
  induction steps generalizing program with
  | nil => exact .refl program
  | cons step steps ih =>
    rw [after_cons]
    exact (keeps_run step program).trans (ih _)

/-- What steps in a row hand out is there in the end. -/
theorem has_of_handedOut {program : Program} {steps : List Construction} {reference : Reference}
    (member : reference ∈ program.handedOut steps) : (program.after steps).Has reference := by
  induction steps generalizing program with
  | nil => cases member
  | cons step steps ih =>
    rw [after_cons]
    rcases List.mem_append.mp member with first | rest
    · exact (keeps_after _ steps).retains reference (has_of_handsOut first)
    · exact ih rest

end Program

end CellC
