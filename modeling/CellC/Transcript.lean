import CellC.Interpreter

/-!
# Transcripts

A program run once to its end, as from a command line: it reads standard input and prints to
standard output, and a failure is reported on standard error and by the exit code.

## Main definitions

* `Transcript`: what such a run leaves behind
* `Transcript.ofRun`: a program run on given standard input
-/

namespace CellC

/-- What a run of a program leaves behind. -/
structure Transcript where
  /-- The value of the entry point, or why there is none. -/
  result : Except Halt Value
  /-- The text on standard output. -/
  stdout : String

namespace Transcript

/-- The text on standard error. -/
def stderr (transcript : Transcript) : String :=
  match transcript.result with
  | .error (.fault fault) => s!"error: {fault.message}\n"
  | .error _ | .ok _ => ""

/-- The exit code: one after a failure and zero otherwise. -/
def exitCode (transcript : Transcript) : Nat :=
  match transcript.result with
  | .error _ => 1
  | .ok _ => 0

/-- A run of a program on given standard input, without a limit on calls and with prompts. -/
def ofRun (program : Program) (stdin : List UInt8) : Transcript :=
  match Interpreter.start program { input := .ofBytes stdin } with
  | .error fault => { result := .error (.fault fault), stdout := "" }
  | .ok interpreter =>
    let (result, interpreter) := interpreter.run
    { result, stdout := interpreter.state.printer.text }

end Transcript

end CellC
