/-!
# Output

A printer receives lines. It can send them to the console, keep them for inspection, or drop them.

## Main definitions

* `Printer`: a channel with the lines it received
* `Printer.println`: one more line
* `Printer.captured`: the text that can be inspected afterwards
-/

namespace CellC

/-- Where output goes. -/
inductive Channel
  | console
  | buffer
  | silent
deriving DecidableEq

/-- A channel with the lines that went through it. -/
structure Printer where
  /-- Where output goes. -/
  channel : Channel := .console
  /-- The lines so far, without their line feeds. -/
  lines : Array String := #[]

/-- The text of lines, each followed by a line feed. -/
def unlines (lines : List String) : String := String.join (lines.map (· ++ "\n"))

namespace Printer

/-- The printer after one more line, which a silent one drops. -/
def println (printer : Printer) (line : String) : Printer :=
  match printer.channel with
  | .console | .buffer => { printer with lines := printer.lines.push line }
  | .silent => printer

/-- The text that went through the channel. -/
def text (printer : Printer) : String := unlines printer.lines.toList

/-- The text that was kept: only a buffer keeps any. -/
def captured (printer : Printer) : String :=
  match printer.channel with
  | .buffer => printer.text
  | .console | .silent => ""

/-- The text that was kept since the printer had received `count` lines. -/
def capturedSince (printer : Printer) (count : Nat) : String :=
  match printer.channel with
  | .buffer => unlines (printer.lines.toList.drop count)
  | .console | .silent => ""

/-- Forgets what was kept. -/
def clear (printer : Printer) : Printer :=
  match printer.channel with
  | .buffer => { printer with lines := #[] }
  | .console | .silent => printer

/-- A line joins the text of any printer that does not drop it. -/
theorem text_println {printer : Printer} (h : printer.channel ≠ .silent) (line : String) :
    (printer.println line).text = printer.text ++ line ++ "\n" := by
  cases hc : printer.channel with
  | silent => exact absurd hc h
  | console | buffer =>
    simp [println, hc, text, unlines, String.join_append, String.append_assoc]

/-- A silent printer drops every line. -/
theorem println_of_silent {printer : Printer} (h : printer.channel = .silent) (line : String) :
    printer.println line = printer := by
  simp [println, h]

end Printer

end CellC
