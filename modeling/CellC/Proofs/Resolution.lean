import CellC.Program.Setup
import CellC.Proofs.Building.Listing
import Mathlib.Data.List.Induction
import Std.Data.TreeMap.Lemmas

/-!
# Names of functions and what they stand for

Before a run the top-level declarations are surveyed from the first to the last. What the survey
finds can be read off the list of declarations: the primitives by their names, the file-scope
variables as they are, and of several functions of one name the last one, or the last one that has a
body. As spellings are stored once, the functions of one name are those whose names are spelled
alike.

## Main definitions

* `Program.namesakes`, `Program.definitions`: the functions of one name, and those with a body
* `Survey.Describes`: what a survey has found so far
* `Setup.Resolves`: the setup finds the entry point, the primitives and so on

## Main results

* `Survey.describes_ofProgram`: what the survey of a program finds
* `setup_resolves_names`: when there is a setup, and what it says
-/

namespace CellC

namespace Program

variable (program : Program)

/-- Whether a function has a body. -/
def hasBody (func : FuncId) : Bool := ((program.func? func).bind FuncDecl.body).isSome

/-- The functions of some name in the order in which they are declared. -/
def namesakes (name : String) : List FuncId :=
  program.functions.filter (program.funcName · = name)

/-- Those that have a body. -/
def definitions (name : String) : List FuncId := (program.namesakes name).filter program.hasBody

end Program

/-! ### Lists -/

section Lists

variable {α : Type}

/-- If a list has one more entry, this is the last one that counts if it counts. -/
theorem getLast?_filter_concat (p : α → Bool) (entries : List α) (entry : α) :
    ((entries ++ [entry]).filter p).getLast? =
      if p entry then some entry else (entries.filter p).getLast? := by
  rw [List.filter_append]
  cases counts : p entry with
  | true => simp [counts]
  | false => simp [counts]

variable [DecidableEq α]

/-- One more entry makes no difference if it was there before. -/
theorem eraseDups_concat (entries : List α) (entry : α) :
    (entries ++ [entry]).eraseDups =
      if entry ∈ entries.eraseDups then entries.eraseDups else entries.eraseDups ++ [entry] := by
  rw [List.eraseDups_append]
  by_cases there : entry ∈ entries
  · have rest : [entry].removeAll entries = [] := by simp [List.removeAll, there]
    rw [rest, if_pos (List.mem_eraseDups.mpr there)]
    exact List.append_nil _
  · have rest : [entry].removeAll entries = [entry] := by simp [List.removeAll, there]
    rw [rest, if_neg (mt List.mem_eraseDups.mp there)]
    rfl

theorem eraseDups_of_nodup {entries : List α} (nodup : entries.Nodup) :
    entries.eraseDups = entries := by
  -- A survey goes from the front to the back, so what it keeps is told by the last entry.
  induction entries using List.reverseRecOn with
  | nil => rfl
  | append_singleton entries entry ih =>
    obtain ⟨front, -, apart⟩ := List.nodup_append.mp nodup
    have new : entry ∉ entries := fun there => apart entry there entry (by simp) rfl
    rw [eraseDups_concat, ih front, if_neg new]

end Lists

/-! ### Surveys -/

namespace Survey

/-- What has been found in some declarations. -/
structure Describes (program : Program) (decls : List TopLevel) (survey : Survey) : Prop where
  primitives : ∀ func : FuncId, survey.primitives[func.index]? =
    if TopLevel.function func ∈ decls then Primitive.ofName? (program.funcName func) else none
  lastMain : survey.lastMain =
    ((decls.filterMap TopLevel.func?).filter (program.funcName · = entryPointName)).getLast?
  globals : survey.globals = (decls.filterMap TopLevel.var?).eraseDups
  definitions : ∀ name : Nat, survey.definitions[name]? =
    ((decls.filterMap TopLevel.func?).filter fun func => program.hasBody func ∧
      (program.func? func).map (·.name.index) = some name).getLast?

variable {program : Program} {decls : List TopLevel} {survey : Survey}

theorem describes_empty : Describes program [] {} where
  primitives _ := rfl
  lastMain := rfl
  globals := rfl
  definitions _ := rfl

namespace Describes

variable (describes : survey.Describes program decls)
include describes

theorem addVariable (var : VarId) :
    (survey.addVariable var).Describes program (decls ++ [TopLevel.variable var]) := by
  have functions : (decls ++ [TopLevel.variable var]).filterMap TopLevel.func? =
      decls.filterMap TopLevel.func? := by
    rw [List.filterMap_append]
    exact List.append_nil _
  have vars : ((decls ++ [TopLevel.variable var]).filterMap TopLevel.var?).eraseDups =
      if var ∈ survey.globals then survey.globals else survey.globals ++ [var] := by
    rw [List.filterMap_append, describes.globals]
    exact eraseDups_concat _ var
  have listed (func : FuncId) : TopLevel.function func ∈ decls ++ [TopLevel.variable var] ↔
      TopLevel.function func ∈ decls := by simp
  unfold Survey.addVariable
  split
  · next there =>
    rw [if_pos there] at vars
    exact ⟨fun func => by simpa only [listed] using describes.primitives func,
      functions ▸ describes.lastMain, vars.symm, functions ▸ describes.definitions⟩
  · next new =>
    rw [if_neg new] at vars
    exact ⟨fun func => by simpa only [listed] using describes.primitives func,
      functions ▸ describes.lastMain, vars.symm, functions ▸ describes.definitions⟩

theorem addFunction (func : FuncId) :
    (survey.addFunction program func).Describes program (decls ++ [TopLevel.function func]) := by
  have functions : (decls ++ [TopLevel.function func]).filterMap TopLevel.func? =
      decls.filterMap TopLevel.func? ++ [func] := List.filterMap_append
  have vars : (decls ++ [TopLevel.function func]).filterMap TopLevel.var? =
      decls.filterMap TopLevel.var? := by
    rw [List.filterMap_append]
    exact List.append_nil _
  have listed (other : FuncId) : TopLevel.function other ∈ decls ++ [TopLevel.function func] ↔
      TopLevel.function other ∈ decls ∨ other = func := by simp
  have unnamed (none : Primitive.ofName? (program.funcName func) = none) (other : FuncId) :
      survey.primitives[other.index]? =
        if TopLevel.function other ∈ decls ++ [TopLevel.function func] then
          Primitive.ofName? (program.funcName other) else Option.none := by
    rw [describes.primitives]
    by_cases same : other = func
    · rw [same, none, ite_self, ite_self]
    · simp only [listed, same, or_false]
  unfold Survey.addFunction
  cases found : program.func? func with
  | none =>
    have named : program.funcName func = NameTable.unknown := by
      rw [Program.funcName, found]
      rfl
    have bodyless : program.hasBody func = false := by
      rw [Program.hasBody, found]
      rfl
    refine ⟨unnamed (by rw [named]; rfl), ?_, vars ▸ describes.globals, fun name => ?_⟩
    · rw [functions, getLast?_filter_concat, describes.lastMain, named]
      rfl
    · rw [functions, getLast?_filter_concat, describes.definitions, bodyless]
      simp
  | some decl =>
    have named : program.funcName func = program.names.spelling decl.name := by
      rw [Program.funcName, found]
      rfl
    refine ⟨fun other => ?_, ?_, vars ▸ describes.globals, fun name => ?_⟩
    · dsimp only
      rw [← named]
      cases primitive : Primitive.ofName? (program.funcName func) with
      | none => exact unnamed primitive other
      | some primitive' =>
        dsimp only
        rw [Std.TreeMap.getElem?_insert]
        by_cases same : func = other
        · subst same
          simp [listed, primitive]
        · have apart : compare func.index other.index ≠ .eq := fun equal =>
            same (congrArg FuncId.mk (Nat.compare_eq_eq.mp equal))
          rw [if_neg apart, describes.primitives]
          simp only [listed, Ne.symm same, or_false]
    · rw [functions, getLast?_filter_concat, describes.lastMain, named]
      simp
    · rw [functions, getLast?_filter_concat, ← describes.definitions, Program.hasBody, found]
      cases body : decl.body with
      | none => simp [body]
      | some start => simp [body, Std.TreeMap.getElem?_insert]

end Describes

theorem describes_foldl (decls : List TopLevel) :
    (decls.foldl (add program) {}).Describes program decls := by
  induction decls using List.reverseRecOn with
  | nil => exact describes_empty
  | append_singleton decls decl ih =>
    rw [List.foldl_append]
    cases decl with
    | function func => exact ih.addFunction func
    | «variable» var => exact ih.addVariable var

theorem describes_ofProgram (program : Program) :
    (ofProgram program).Describes program program.topLevel.toList :=
  describes_foldl _

end Survey

/-! ### Functions of one name -/

namespace Program

variable {program : Program} {name : String} {func : FuncId}

theorem mem_namesakes :
    func ∈ program.namesakes name ↔ func ∈ program.functions ∧ program.funcName func = name := by
  simp [namesakes]

theorem mem_definitions :
    func ∈ program.definitions name ↔
      func ∈ program.functions ∧ program.funcName func = name ∧ program.hasBody func = true := by
  simp [definitions, mem_namesakes, and_assoc]

/-- The definition that has been noted for the name of a function is the last one with the same
spelling. -/
theorem Listed.definition?_ofProgram (listed : program.Listed) (member : func ∈ program.functions) :
    (Survey.ofProgram program).definition? program func =
      (program.definitions (program.funcName func)).getLast? := by
  obtain ⟨decl, found⟩ := listed.mem_functions_iff.mp member
  unfold Survey.definition?
  rw [found]
  show (Survey.ofProgram program).definitions[decl.name.index]? = _
  rw [(Survey.describes_ofProgram program).definitions, definitions, namesakes, List.filter_filter]
  refine congrArg List.getLast? (List.filter_congr fun other member' => ?_)
  obtain ⟨decl', found'⟩ := listed.mem_functions_iff.mp member'
  have named := listed.name_eq_iff found' found
  have index : decl'.name.index = decl.name.index ↔ decl'.name = decl.name :=
    ⟨congrArg Name.mk, congrArg Name.index⟩
  simp [found', index, named]

end Program

/-! ### Setups -/

/-- What the setup of a program says: the last definition of the entry point or, without any, its
last declaration is the entry; the primitives are the functions with their names; the file-scope
variables are those that are declared; and a function without a body stands for the last definition
of its name, if there is one. -/
structure Setup.Resolves (program : Program) (setup : Setup) : Prop where
  entry : some setup.entry = (program.definitions entryPointName).getLast?.or
    (program.namesakes entryPointName).getLast?
  primitive : ∀ func ∈ program.functions, ∀ primitive,
    setup.primitive? func = some primitive ↔ program.funcName func = primitive.name
  globals : setup.globals = program.fileScopeVars
  hasFileScope : ∀ var, setup.hasFileScope var = true ↔ var ∈ setup.globals
  nodup : setup.globals.Nodup
  implementation : ∀ func ∈ program.functions, setup.implementation program func =
    if program.hasBody func then func
    else (program.definitions (program.funcName func)).getLast?.getD func

namespace Program.Listed

variable {program : Program} (listed : program.Listed)
include listed

theorem implementation_eq {setup : Setup} (surveyed : setup.toSurvey = Survey.ofProgram program)
    {func : FuncId} (member : func ∈ program.functions) :
    setup.implementation program func =
      if program.hasBody func then func
      else (program.definitions (program.funcName func)).getLast?.getD func := by
  unfold Setup.implementation
  rw [surveyed, listed.definition?_ofProgram member]
  unfold Program.hasBody
  cases (program.func? func).bind FuncDecl.body <;> rfl

omit listed in
theorem lastMain_ofProgram (program : Program) : (Survey.ofProgram program).lastMain =
    (program.namesakes entryPointName).getLast? :=
  (Survey.describes_ofProgram program).lastMain

omit listed in
theorem setup_of_lastMain_none (last : (Survey.ofProgram program).lastMain = none) :
    program.setup = .error (.noEntryPoint entryPointName) := by
  unfold Program.setup
  dsimp only
  rw [last]

omit listed in
theorem setup_of_lastMain_some {func : FuncId}
    (last : (Survey.ofProgram program).lastMain = some func) :
    program.setup = .ok { Survey.ofProgram program with
      entry := ((Survey.ofProgram program).definition? program func).getD func } := by
  unfold Program.setup
  dsimp only
  rw [last]

omit listed in
/-- There is a setup unless no function has the name of the entry point. -/
theorem setup_eq_error_iff (fault : Fault) :
    program.setup = .error fault ↔
      fault = .noEntryPoint entryPointName ∧
        ∀ func ∈ program.functions, program.funcName func ≠ entryPointName := by
  have none_iff : (Survey.ofProgram program).lastMain = none ↔
      ∀ func ∈ program.functions, program.funcName func ≠ entryPointName := by
    rw [lastMain_ofProgram, List.getLast?_eq_none_iff, namesakes, List.filter_eq_nil_iff]
    simp only [decide_eq_true_eq, ne_eq]
  rw [← none_iff]
  cases last : (Survey.ofProgram program).lastMain with
  | none =>
    rw [setup_of_lastMain_none last]
    exact ⟨fun same => ⟨(Except.error.inj same).symm, rfl⟩, fun ⟨same, _⟩ => same ▸ rfl⟩
  | some func =>
    rw [setup_of_lastMain_some last]
    exact ⟨fun same => (by cases same), fun ⟨_, same⟩ => (by cases same)⟩

/-- The setup of a program that lists everything once. -/
theorem resolves {setup : Setup} (set : program.setup = .ok setup) : setup.Resolves program := by
  cases last : (Survey.ofProgram program).lastMain with
  | none =>
    rw [setup_of_lastMain_none last] at set
    cases set
  | some func =>
    rw [setup_of_lastMain_some last] at set
    cases set
    have described := Survey.describes_ofProgram program
    rw [lastMain_ofProgram] at last
    obtain ⟨member, named⟩ := mem_namesakes.mp (List.mem_of_getLast? last)
    have globals : (Survey.ofProgram program).globals = program.fileScopeVars :=
      described.globals.trans (eraseDups_of_nodup listed.nodup_fileScopeVars)
    refine
      { entry := ?_
        primitive := fun other member' primitive => ?_
        globals
        hasFileScope := fun var => decide_eq_true_iff
        nodup := globals ▸ listed.nodup_fileScopeVars
        implementation := fun other => listed.implementation_eq rfl }
    · rw [listed.definition?_ofProgram member, named, last]
      cases (program.definitions entryPointName).getLast? <;> rfl
    · have there : TopLevel.function other ∈ program.topLevel.toList := by
        obtain ⟨decl, there, declares⟩ := List.mem_filterMap.mp member'
        cases decl with
        | function same => cases declares; exact there
        | «variable» var => cases declares
      show (Survey.ofProgram program).primitives[other.index]? = _ ↔ _
      rw [described.primitives, if_pos there]
      exact Primitive.ofName?_eq_some_iff

end Program.Listed

namespace Setup.Resolves

variable {program : Program} {setup : Setup} (resolves : setup.Resolves program)
include resolves

theorem implementation_of_hasBody {func : FuncId} (member : func ∈ program.functions)
    (bodied : program.hasBody func = true) : setup.implementation program func = func := by
  rw [resolves.implementation func member, if_pos bodied]

/-- A function stands for a definition of its name, or for itself if its name has none. -/
theorem implementation_cases {func : FuncId} (member : func ∈ program.functions) :
    setup.implementation program func ∈ program.definitions (program.funcName func) ∨
      setup.implementation program func = func ∧
        program.definitions (program.funcName func) = [] := by
  rw [resolves.implementation func member]
  split
  · next bodied => exact .inl (Program.mem_definitions.mpr ⟨member, rfl, bodied⟩)
  · cases last : (program.definitions (program.funcName func)).getLast? with
    | none => exact .inr ⟨rfl, List.getLast?_eq_none_iff.mp last⟩
    | some definition => exact .inl (List.mem_of_getLast? last)

theorem funcName_implementation {func : FuncId} (member : func ∈ program.functions) :
    program.funcName (setup.implementation program func) = program.funcName func := by
  obtain definition | ⟨same, -⟩ := resolves.implementation_cases member
  · exact (Program.mem_definitions.mp definition).2.1
  · rw [same]

theorem implementation_implementation {func : FuncId} (member : func ∈ program.functions) :
    setup.implementation program (setup.implementation program func) =
      setup.implementation program func := by
  obtain definition | ⟨same, -⟩ := resolves.implementation_cases member
  · obtain ⟨member', -, bodied⟩ := Program.mem_definitions.mp definition
    exact resolves.implementation_of_hasBody member' bodied
  · rw [same, same]

/-- The entry point is the function whose body runs. -/
theorem implementation_entry : setup.implementation program setup.entry = setup.entry := by
  have entry := resolves.entry
  cases last : (program.definitions entryPointName).getLast? with
  | some definition =>
    rw [last, Option.some_or] at entry
    cases entry
    obtain ⟨member, -, bodied⟩ := Program.mem_definitions.mp (List.mem_of_getLast? last)
    exact resolves.implementation_of_hasBody member bodied
  | none =>
    rw [last, Option.none_or] at entry
    obtain ⟨member, named⟩ := Program.mem_namesakes.mp (List.mem_of_getLast? entry.symm)
    rw [resolves.implementation _ member, named, last]
    exact ite_self _

/-- Only a name without definitions stands for a function without a body. -/
theorem hasBody_implementation {func : FuncId} (member : func ∈ program.functions)
    (bodyless : program.hasBody (setup.implementation program func) = false) :
    ∀ other ∈ program.functions, program.funcName other = program.funcName func →
      program.hasBody other = false := by
  intro other member' named
  obtain definition | ⟨-, none⟩ := resolves.implementation_cases member
  · rw [(Program.mem_definitions.mp definition).2.2] at bodyless
    cases bodyless
  · refine Bool.eq_false_iff.mpr fun bodied => ?_
    have definition := Program.mem_definitions.mpr ⟨member', named, bodied⟩
    rw [none] at definition
    cases definition

end Setup.Resolves

/-- **Names are resolved.** A built program has no setup exactly if none of its functions is named
`main`. Its setup finds the entry point, the primitives and the file-scope variables, and tells
which body runs for a function: one of a function of the same name, always the same one, the
function itself for the entry point, and none only if no function of that name has a body. -/
theorem setup_resolves_names {program : Program} (built : program.Built) :
    (∀ func, func ∈ program.functions ↔ ∃ decl, program.func? func = some decl) ∧
    (∀ fault, program.setup = .error fault ↔
      fault = .noEntryPoint "main" ∧
        ∀ func ∈ program.functions, program.funcName func ≠ "main") ∧
    ∀ setup, program.setup = .ok setup →
      setup.Resolves program ∧ setup.implementation program setup.entry = setup.entry ∧
      ∀ func ∈ program.functions,
        program.funcName (setup.implementation program func) = program.funcName func ∧
        setup.implementation program (setup.implementation program func) =
          setup.implementation program func ∧
        (program.hasBody (setup.implementation program func) = false →
          ∀ other ∈ program.functions, program.funcName other = program.funcName func →
            program.hasBody other = false) := by
  have listed := built.listed
  refine ⟨fun func => listed.mem_functions_iff, Program.Listed.setup_eq_error_iff,
    fun setup set => ?_⟩
  have resolves := listed.resolves set
  exact ⟨resolves, resolves.implementation_entry, fun func member =>
    ⟨resolves.funcName_implementation member, resolves.implementation_implementation member,
      resolves.hasBody_implementation member⟩⟩

/-- The steps of a program in which `f` and `main` are declared before and after they are defined,
`f` is defined twice, and `PRINT` has a body. -/
def redeclarationsSteps : List Construction :=
  [.prototype "main" [] .int, .prototype "PRINT" [.int] .void, .global "x" .int none,
    .function "f" .int, .function "f" .int, .prototype "f" [] .int, .function "main" .int,
    .global "y" .char none, .prototype "main" [] .int, .stmt (.return none), .body ⟨1⟩ ⟨0⟩,
    .body ⟨2⟩ ⟨0⟩, .body ⟨3⟩ ⟨0⟩, .body ⟨5⟩ ⟨0⟩]

/-- The program with these declarations. -/
def redeclarations : Program where
  names := ⟨⟨#["", "main", "PRINT", "arg0", "x", "f", "y"]⟩⟩
  vars := #[⟨⟨3⟩, .int, none⟩, ⟨⟨4⟩, .int, none⟩, ⟨⟨6⟩, .char, none⟩]
  stmts := #[.return none]
  funcs := #[⟨⟨1⟩, [], .int, none⟩, ⟨⟨2⟩, [⟨0⟩], .void, some ⟨0⟩⟩, ⟨⟨5⟩, [], .int, some ⟨0⟩⟩,
    ⟨⟨5⟩, [], .int, some ⟨0⟩⟩, ⟨⟨5⟩, [], .int, none⟩, ⟨⟨1⟩, [], .int, some ⟨0⟩⟩,
    ⟨⟨1⟩, [], .int, none⟩]
  topLevel := #[.function ⟨0⟩, .function ⟨1⟩, .variable ⟨1⟩, .function ⟨2⟩, .function ⟨3⟩,
    .function ⟨4⟩, .function ⟨5⟩, .variable ⟨2⟩, .function ⟨6⟩]

/-- A run starts from the definition of `main`, whatever comes after it. The declaration of `f`
stands for its last definition, and each definition for itself; `PRINT` is a primitive all the same.
-/
theorem setup_resolves_names_redeclarations :
    (Program.ofConstructions redeclarationsSteps).2 = redeclarations ∧
    ∃ setup, redeclarations.setup = .ok setup ∧ setup.entry = ⟨5⟩ ∧
      setup.implementation redeclarations ⟨4⟩ = ⟨3⟩ ∧
      setup.implementation redeclarations ⟨2⟩ = ⟨2⟩ ∧ setup.primitive? ⟨1⟩ = some .print ∧
      setup.globals = [⟨1⟩, ⟨2⟩] := by
  have steps : (Program.ofConstructions redeclarationsSteps).2 = redeclarations := by
    decide +kernel
  have fit : Program.StepsFit {} redeclarationsSteps := by decide +kernel
  obtain ⟨-, fails, finds⟩ := setup_resolves_names (steps ▸ Program.built_ofConstructions fit)
  cases set : redeclarations.setup with
  | error fault =>
    have unnamed := ((fails fault).mp set).2 ⟨0⟩ (by decide +kernel)
    exact absurd (by decide +kernel) unnamed
  | ok setup =>
    obtain ⟨resolves, -⟩ := finds setup set
    have entry := resolves.entry
    have last : (redeclarations.definitions entryPointName).getLast? = some ⟨5⟩ := by
      decide +kernel
    rw [last, Option.some_or] at entry
    have declared := resolves.implementation ⟨4⟩ (by decide +kernel)
    have defined := resolves.implementation ⟨2⟩ (by decide +kernel)
    refine ⟨steps, setup, rfl, Option.some.inj entry, ?_, ?_, ?_, ?_⟩
    · rw [declared]
      decide +kernel
    · rw [defined]
      decide +kernel
    · exact (resolves.primitive ⟨1⟩ (by decide +kernel) .print).mpr (by decide +kernel)
    · rw [resolves.globals]
      decide +kernel

end CellC
