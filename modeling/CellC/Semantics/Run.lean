import CellC.Semantics.Evaluation

/-!
# Running a program

A run gives the file-scope variables their values, unless that has been done before, and calls the
entry point. Nothing supplies the entry point's arguments, so its parameters start at zero.

## Main definitions

* `Config.readyGlobals`: the file-scope variables come to life once
* `Config.running`: a run in terms of the evaluation of expressions and the calls of functions
* `Config.run`: a run of the program
-/

namespace CellC

namespace Config

variable (config : Config)

/-- Brings the file-scope variables to life in order of declaration, unless that has been done. They
count as ready only when the last of them is. -/
@[inline] def readyGlobals (eval : ExprId → Action Value) : Action Unit := do
  if !(← get).globalsReady then
    config.declareAll eval config.setup.globals
    -- A fault in between leaves them unready, and the next run starts over.
    modify fun state => { state with globalsReady := true }

/-- Runs the program and yields the value of the entry point. -/
@[inline] def running (eval : ExprId → Action Value)
    (invoke : FuncId → List Value → TypeId → Action Value) : Action Value := do
  Action.emit .run
  config.readyGlobals eval
  let entry := config.setup.entry
  let decl ← Action.ofOption (config.program.func? entry)
  let values := List.replicate decl.params.length Value.zero
  let value ← invoke entry values decl.ret
  Action.emit (.entryReturned value)
  pure value

/-- Runs the program within a number of levels. -/
def run (levels : Nat) : Action Value :=
  config.running (eval config levels) (config.functionCall (exec config levels))

end Config

end CellC
