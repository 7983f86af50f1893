import CellC.Text.Integer
import CellC.Text.Words

/-!
# Integer input

A program reads integers one at a time. They come from a console, whose lines are taken only when no
word is pending, from a text that is cut into words at once, or from a list of integers.

## Main definitions

* `Input`: a source of integers with what is left of it
* `Input.read`: the next integer, or why there is none
-/

namespace CellC

/-- A source of integers. -/
inductive Input
  /-- The lines of a console that were not read yet, and the words of the lines that were. -/
  | console (lines : List (List UInt8)) (pending : List String)
  /-- The words of a text. -/
  | text (pending : List String)
  /-- A list of integers. -/
  | numbers (values : List Cell)

/-- The outcome of reading an integer. -/
inductive Reading
  | value (n : Cell)
  /-- There was a word, which is used up, but it is no integer. -/
  | malformed (word : String) (error : IntegerError)
  /-- The source had nothing to offer. -/
  | unavailable

namespace Reading

/-- The integer that was read, if there was one. -/
def value? : Reading → Option Cell
  | value n => some n
  | malformed _ _ | unavailable => none

/-- The reading of one word. -/
def ofWord (word : String) : Reading :=
  match readInteger word with
  | .ok n => .value n
  | .error error => .malformed word error

end Reading

/-- The text of a line, if its bytes are UTF-8. -/
def lineText? (line : List UInt8) : Option String := String.fromUTF8? ⟨line.toArray⟩

namespace Input

/-- The input of a console that was given some bytes. -/
def ofBytes (bytes : List UInt8) : Input := console (cutLines bytes) []

/-- The input of a text. -/
def ofText (content : String) : Input := .text (words content)

/-- The input of a list of integers. -/
def ofList (values : List Cell) : Input := numbers values

/-- Appends the words of `more` to the pending words; a list of integers takes none. -/
def append (input : Input) (more : String) : Input :=
  match input with
  | console lines pending => console lines (pending ++ words more)
  | .text pending => .text (pending ++ words more)
  | numbers values => numbers values

/-- Reads from the lines of a console while no word is pending. Lines without words are skipped, and
a line whose bytes are not UTF-8 is used up by one reading that fails. -/
def readLines : List (List UInt8) → Reading × Input
  | [] => (.unavailable, console [] [])
  | line :: lines =>
    match lineText? line with
    | none => (.unavailable, console lines [])
    | some content =>
      match words content with
      | [] => readLines lines
      | word :: pending => (.ofWord word, console lines pending)

/-- The next integer and the input after it. -/
def read : Input → Reading × Input
  | console lines (word :: pending) => (.ofWord word, console lines pending)
  | console lines [] => readLines lines
  | .text (word :: pending) => (.ofWord word, .text pending)
  | .text [] => (.unavailable, .text [])
  | numbers (n :: values) => (.value n, numbers values)
  | numbers [] => (.unavailable, numbers [])

end Input

end CellC
