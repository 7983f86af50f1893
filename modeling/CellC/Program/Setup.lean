import Std.Data.TreeMap.Basic
import CellC.Fault
import CellC.Program.Basic

/-!
# Program setup

Before a program runs, its top-level declarations are surveyed once. The survey recognises the
runtime primitives and the entry point by name, lists the file-scope variables, and notes for each
name the last function that has a body.

## Main definitions

* `Primitive`: the functions that the interpreter itself supplies
* `Survey`: the facts that a pass over the top-level declarations gathers
* `Program.setup`: the survey of a program together with its entry point
* `Setup.implementation`: the function whose body runs in a call
-/

namespace CellC

/-! ### Primitives -/

/-- A function that the interpreter itself supplies. -/
inductive Primitive
  /-- Reads an integer. -/
  | read
  /-- Prints an integer. -/
  | print
  /-- Makes a block of memory. -/
  | allocate
  /-- Ends a block of memory. -/
  | free
deriving DecidableEq

namespace Primitive

/-- The name under which a primitive is declared. -/
def name : Primitive → String
  | read => "GET"
  | print => "PRINT"
  | allocate => "MALLOC"
  | free => "FREE"

/-- All primitives. -/
def all : List Primitive := [read, print, allocate, free]

/-- The primitive with the given name. -/
def ofName? (name : String) : Option Primitive := all.find? (·.name == name)

/-- The number of arguments of a primitive. -/
def arity : Primitive → Nat
  | read => 0
  | print | allocate | free => 1

/-- Distinct primitives have distinct names. -/
theorem ofName?_name (primitive : Primitive) : ofName? primitive.name = some primitive := by
  cases primitive <;> rfl

theorem name_of_ofName? {name : String} {primitive : Primitive}
    (found : ofName? name = some primitive) : primitive.name = name := by
  have named := List.find?_some found
  simpa using named

theorem ofName?_eq_some_iff {name : String} {primitive : Primitive} :
    ofName? name = some primitive ↔ name = primitive.name :=
  ⟨fun found => (name_of_ofName? found).symm, fun named => named ▸ ofName?_name primitive⟩

end Primitive

/-- The name of the function that a run starts from. -/
def entryPointName : String := "main"

/-! ### Surveys -/

/-- What a pass over top-level declarations has found. -/
structure Survey where
  /-- The primitives, by the number of the function that declares them. -/
  primitives : Std.TreeMap Nat Primitive := {}
  /-- The last function with the name of the entry point. -/
  lastMain : Option FuncId := none
  /-- The file-scope variables in order of declaration. -/
  globals : List VarId := []
  /-- The last function that has a body, by the number of its name. -/
  definitions : Std.TreeMap Nat FuncId := {}

namespace Survey

/-- Takes note of a function. -/
def addFunction (program : Program) (survey : Survey) (func : FuncId) : Survey :=
  match program.func? func with
  | none => survey
  | some decl =>
    let name := program.names.spelling decl.name
    { survey with
      primitives :=
        match Primitive.ofName? name with
        | some primitive => survey.primitives.insert func.index primitive
        | none => survey.primitives
      lastMain := if name = entryPointName then some func else survey.lastMain
      -- A later definition of a name takes the place of an earlier one.
      definitions :=
        match decl.body with
        | some _ => survey.definitions.insert decl.name.index func
        | none => survey.definitions }

/-- Takes note of a file-scope variable, once. -/
def addVariable (survey : Survey) (var : VarId) : Survey :=
  if var ∈ survey.globals then survey else { survey with globals := survey.globals ++ [var] }

/-- Takes note of a top-level declaration. -/
def add (program : Program) (survey : Survey) : TopLevel → Survey
  | .function func => survey.addFunction program func
  | .variable var => survey.addVariable var

/-- The survey of a whole program. -/
def ofProgram (program : Program) : Survey := program.topLevel.toList.foldl (add program) {}

/-- The last function that has a body and the same name as `func`. -/
def definition? (survey : Survey) (program : Program) (func : FuncId) : Option FuncId := do
  survey.definitions[(← program.func? func).name.index]?

end Survey

/-! ### Setups -/

/-- The survey of a program that has an entry point. -/
structure Setup extends Survey where
  /-- The function that a run starts from. -/
  entry : FuncId

/-- The setup of a program. Of several functions with the name of the entry point the last one with
a body counts, and the last one if none has a body. -/
def Program.setup (program : Program) : Except Fault Setup :=
  let survey := Survey.ofProgram program
  match survey.lastMain with
  | some func => .ok { survey with entry := (survey.definition? program func).getD func }
  | none => .error (.noEntryPoint entryPointName)

namespace Setup

/-- The primitive that a function declares. -/
def primitive? (setup : Setup) (func : FuncId) : Option Primitive := setup.primitives[func.index]?

/-- Whether a variable has file scope. -/
def hasFileScope (setup : Setup) (var : VarId) : Bool := var ∈ setup.globals

/-- The function whose body runs when `func` is called: itself if it has a body, and otherwise the
last function of its name that has one. -/
def implementation (setup : Setup) (program : Program) (func : FuncId) : FuncId :=
  match (program.func? func).bind FuncDecl.body with
  | some _ => func
  | none => (setup.definition? program func).getD func

end Setup

end CellC
