import CellC.Proofs.Building.Keeping

/-!
# What a program declares

The top-level declarations of a built program list each of its functions and each of its file-scope
variables once, in the order in which they were declared. Spellings are stored once as well, so that
two functions have the same name exactly if their names are spelled alike.

## Main definitions

* `Program.functions`, `Program.fileScopeVars`: what the top-level declarations list
* `Program.Listed`: everything is listed once and has a name of its own

## Main results

* `Program.Built.listed`: a built program lists everything once
* `Program.Listed.name_eq_iff`: names are equal exactly if they are spelled alike
-/

namespace CellC

namespace TopLevel

/-- The function that is declared, if one is. -/
def func? : TopLevel → Option FuncId
  | function func => some func
  | .variable _ => none

/-- The variable that is declared, if one is. -/
def var? : TopLevel → Option VarId
  | function _ => none
  | .variable var => some var

end TopLevel

namespace Program

/-- The functions in the order in which they are declared. -/
def functions (program : Program) : List FuncId := program.topLevel.toList.filterMap TopLevel.func?

/-- The file-scope variables in the order in which they are declared. -/
def fileScopeVars (program : Program) : List VarId :=
  program.topLevel.toList.filterMap TopLevel.var?

/-- The top-level declarations list all functions and some of the variables, in order, and every
function has a name whose spelling is stored once. -/
structure Listed (program : Program) : Prop where
  distinct : program.names.spellings.Distinct
  spelled : ∀ func decl, program.func? func = some decl →
    ∃ spelling, program.names.spellings.get? decl.name.index = some spelling
  functions : program.functions = (List.range program.funcs.size).map FuncId.mk
  vars : program.fileScopeVars.Pairwise (·.index < ·.index)
  declared : ∀ var ∈ program.fileScopeVars, var.index < program.vars.size

/-- In a program without declarations there is nothing to be listed. -/
theorem listed_empty : Listed {} where
  distinct i j spelling here here' := by
    match i, j, here, here' with
    | 0, 0, _, _ => rfl
  spelled func decl found := by simp [func?] at found
  functions := rfl
  vars := .nil
  declared var member := by cases member

namespace Listed

variable {program : Program} (listed : program.Listed)
include listed

/-- The functions of a program are the numbers under which there is one. -/
theorem mem_functions_iff {func : FuncId} :
    func ∈ program.functions ↔ ∃ decl, program.func? func = some decl := by
  rw [listed.functions, List.mem_map]
  constructor
  · rintro ⟨i, lt, rfl⟩
    exact ⟨_, Array.getElem?_eq_getElem (List.mem_range.mp lt)⟩
  · rintro ⟨decl, found⟩
    obtain ⟨lt, -⟩ := Array.getElem?_eq_some_iff.mp found
    exact ⟨func.index, List.mem_range.mpr lt, rfl⟩

/-- No file-scope variable is listed twice. -/
theorem nodup_fileScopeVars : program.fileScopeVars.Nodup :=
  listed.vars.imp fun lt same => absurd (same ▸ lt) (Nat.lt_irrefl _)

/-- Functions have the same name exactly if their names are spelled alike. -/
theorem name_eq_iff {func func' : FuncId} {decl decl' : FuncDecl}
    (found : program.func? func = some decl) (found' : program.func? func' = some decl') :
    decl.name = decl'.name ↔ program.funcName func = program.funcName func' := by
  obtain ⟨spelling, there⟩ := listed.spelled func decl found
  obtain ⟨spelling', there'⟩ := listed.spelled func' decl' found'
  have spelled : program.funcName func = spelling := by
    rw [funcName, found, Option.map_some, Option.getD_some, NameTable.spelling, there]
    rfl
  have spelled' : program.funcName func' = spelling' := by
    rw [funcName, found', Option.map_some, Option.getD_some, NameTable.spelling, there']
    rfl
  rw [spelled, spelled']
  constructor
  · intro same
    rw [same, there'] at there
    exact (Option.some.inj there).symm
  · rintro rfl
    have same := listed.distinct there there'
    exact congrArg Name.mk same

end Listed

end Program

/-! ### Builders -/

namespace Builder

variable {program : Program} (listed : program.Listed)
include listed

theorem listed_name (spelling : String) : ((name spelling).run program).2.Listed :=
  { listed with
    distinct := listed.distinct.intern
    spelled := fun func decl found =>
      have ⟨old, there⟩ := listed.spelled func decl found
      ⟨old, Interner.get?_intern_of_some there⟩ }

theorem listed_var (spelling : String) (type : TypeId) (init : Option ExprId) :
    ((var spelling type init).run program).2.Listed :=
  { listed_name listed spelling with
    declared := fun var member =>
      Nat.lt_of_lt_of_eq (Nat.lt_succ_of_lt (listed.declared var member))
        (Array.size_push _).symm }

/-- A file-scope variable is listed once, when it is declared. -/
theorem listed_global (spelling : String) (type : TypeId) (init : Option ExprId) :
    ((global spelling type init).run program).2.Listed := by
  have declared := listed_var listed spelling type init
  have functions : ((global spelling type init).run program).2.functions = program.functions := by
    show (program.topLevel.push (.variable ⟨program.vars.size⟩)).toList.filterMap _ = _
    rw [Array.toList_push, List.filterMap_append]
    exact List.append_nil _
  have vars : ((global spelling type init).run program).2.fileScopeVars =
      program.fileScopeVars ++ [⟨program.vars.size⟩] := by
    show (program.topLevel.push (.variable ⟨program.vars.size⟩)).toList.filterMap _ = _
    rw [Array.toList_push, List.filterMap_append]
    rfl
  have size : ((global spelling type init).run program).2.vars.size = program.vars.size + 1 :=
    Array.size_push _
  refine ⟨declared.distinct, declared.spelled, functions.trans listed.functions, ?_, ?_⟩
  · rw [vars]
    refine List.pairwise_append.mpr ⟨listed.vars, List.pairwise_singleton _ _, ?_⟩
    intro var member other last
    obtain rfl := List.mem_singleton.mp last
    exact listed.declared var member
  · rw [vars, size]
    intro var member
    obtain old | last := List.mem_append.mp member
    · exact Nat.lt_succ_of_lt (listed.declared var old)
    · obtain rfl := List.mem_singleton.mp last
      exact Nat.lt_succ_self _

/-- A function is listed once, when it is declared. -/
theorem listed_function (spelling : String) (ret : TypeId) :
    ((function spelling ret).run program).2.Listed := by
  have named := listed_name listed spelling
  have functions : ((function spelling ret).run program).2.functions =
      program.functions ++ [⟨program.funcs.size⟩] := by
    show (program.topLevel.push (.function ⟨program.funcs.size⟩)).toList.filterMap _ = _
    rw [Array.toList_push, List.filterMap_append]
    rfl
  have vars : ((function spelling ret).run program).2.fileScopeVars = program.fileScopeVars := by
    show (program.topLevel.push (.function ⟨program.funcs.size⟩)).toList.filterMap _ = _
    rw [Array.toList_push, List.filterMap_append]
    exact List.append_nil _
  have size : ((function spelling ret).run program).2.funcs.size = program.funcs.size + 1 :=
    Array.size_push _
  refine ⟨named.distinct, fun func decl found => ?_, ?_, ?_, ?_⟩
  · -- The spelling of the new function has just been stored, unless it was there before.
    have found : (program.funcs.push _)[func.index]? = some decl := found
    rw [Array.getElem?_push] at found
    split at found
    · cases found
      exact ⟨spelling, Interner.get?_intern_self⟩
    · exact named.spelled func decl found
  · rw [functions, size, List.range_succ, List.map_append, listed.functions]
    rfl
  · rw [vars]
    exact listed.vars
  · rw [vars]
    exact listed.declared

/-- Bodies and parameters do not matter for what is listed. -/
theorem listed_modifyFunc (func : FuncId) {f : FuncDecl → FuncDecl}
    (kept : ∀ decl, (f decl).name = decl.name) :
    ((modifyFunc func f).run program).2.Listed := by
  have size : ((modifyFunc func f).run program).2.funcs.size = program.funcs.size :=
    Array.size_modify
  refine ⟨listed.distinct, fun other decl found => ?_, ?_, listed.vars, listed.declared⟩
  · have found : (program.funcs.modify func.index f)[other.index]? = some decl := found
    rw [Array.getElem?_modify] at found
    split at found
    · obtain ⟨old, there, rfl⟩ := Option.map_eq_some_iff.mp found
      rw [kept]
      exact listed.spelled other old there
    · exact listed.spelled other decl found
  · rw [size]
    exact listed.functions

theorem listed_param (func : FuncId) (spelling : String) (type : TypeId) :
    ((param func spelling type).run program).2.Listed :=
  listed_modifyFunc (listed_var listed spelling type none) func fun _ => rfl

theorem listed_anonymousParams (func : FuncId) (start : Nat) (types : List TypeId) :
    ((anonymousParams func start types).run program).2.Listed := by
  induction types generalizing program start with
  | nil => exact listed
  | cons type types ih => exact ih (listed_param listed func s!"arg{start}" type) (start + 1)

theorem listed_expr (form : ExprForm) : ((expr form).run program).2.Listed := by
  obtain ⟨type, types, same⟩ := run_expr form program
  rw [same]
  exact { listed with }

end Builder

namespace Program

/-- Every step of construction lists what it declares. -/
theorem Listed.run {program : Program} (listed : program.Listed) (construction : Construction) :
    (construction.run.run program).2.Listed := by
  cases construction with
  | type layer => exact { listed with }
  | function name ret => exact Builder.listed_function listed name ret
  | prototype name params ret =>
    exact Builder.listed_anonymousParams (Builder.listed_function listed name ret) _ 0 params
  | param func name type => exact Builder.listed_param listed func name type
  | body func start => exact Builder.listed_modifyFunc listed func fun _ => rfl
  | var name type init => exact Builder.listed_var listed name type init
  | global name type init => exact Builder.listed_global listed name type init
  | expr form => exact Builder.listed_expr listed form
  | string text =>
    exact Builder.listed_expr (Builder.listed_name listed text)
      (.strLit ((Builder.name text).run program).1)
  | stmt form => exact { listed with }

/-- A built program lists everything once. -/
theorem Built.listed {program : Program} (built : program.Built) : program.Listed := by
  induction built with
  | refl => exact listed_empty
  | step construction _ _ ih => exact ih.run construction

end Program

end CellC
