import CellC.Machine.Action

/-!
# Variables and objects in memory

How a program reaches its variables and the objects in memory. A variable is looked up in the frame
of the innermost activation and then, if it is a file-scope variable, in the file-scope frame; no
other frame is ever consulted. An object in memory is read and written at a static type.

## Main definitions

* `Config`: everything that a run never changes
* `Config.varValue`, `Config.assignVar`: variables
* `Config.loadAt`, `Config.storeAt`: objects in memory
-/

namespace CellC

/-- Everything that a run never changes. -/
structure Config where
  /-- The program. -/
  program : Program
  /-- The facts about its top-level declarations. -/
  setup : Setup
  /-- The greatest permitted number of active calls, if there is one. -/
  depthLimit : Option Nat := none
  /-- Whether a line asks for input before an integer is read. -/
  prompt : Bool := true

namespace Config

variable (config : Config)

/-- The types of the program. -/
def types : TypeTable := config.program.types

/-! ### Variables -/

/-- The value of a variable: its binding in the innermost activation, and that at file scope for a
file-scope variable that the activation does not bind. -/
def visibleValue? (stack : CallStack) (var : VarId) : Option Value :=
  match stack.top.value? var with
  | some value => some value
  -- The frames in between are those of callers, which an activation does not see.
  | none => if config.setup.hasFileScope var then stack.root.value? var else none

/-- A variable that the innermost activation binds has that value. -/
theorem visibleValue?_of_top {config : Config} {stack : CallStack} {var : VarId} {value : Value}
    (bound : stack.top.value? var = some value) : config.visibleValue? stack var = some value := by
  rw [visibleValue?, bound]

/-- The value of a variable, which has to have one. -/
def varValue (var : VarId) : Action Value := do
  match config.visibleValue? (← get).stack var with
  | some value => pure value
  | none => .fail (.unbound (config.program.varName var))

/-- Gives a variable a value: at file scope for a file-scope variable that the innermost activation
does not bind, and in that activation otherwise. -/
def assignVar (var : VarId) (value : Value) : Action Unit := do
  -- The choice is that of a reading, so a value is found again where it was put.
  if config.setup.hasFileScope var && !(← get).stack.top.binds var then
    Action.modifyRoot (·.bind var value)
  else Action.bind var value

/-! ### Objects in memory -/

/-- The value of type `type` at an address. An array is not loaded: it stands for its address. -/
def loadAt (address : Address) (type : TypeId) : Action Value := do
  if config.types.isArray type then pure (.array address)
  else return config.types.view type (← Action.load address (config.types.width type))

/-- Stores a value at an address as an object of type `type`. -/
def storeAt (address : Address) (type : TypeId) (value : Value) : Action Unit :=
  Action.store address (config.types.width type) value.cell

/-- The number of bytes between the elements that an operand of some type points to. -/
def elementStride (type : TypeId) : Cell :=
  config.types.stride ((config.types.element? type).getD .int)

end Config

end CellC
