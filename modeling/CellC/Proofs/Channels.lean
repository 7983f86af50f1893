import CellC.Proofs.Isolation
import CellC.Proofs.Parts

/-!
# Output and input in the course of a request

Output only grows and input is only used up. So what was printed and what was read between two
moments of a request can be told from the states at these moments, and both are put together from
what was printed and read in between.

## Main definitions

* `Printer.GrowsTo`: lines were added to the output
* `Input.upcoming`: the readings that a source has still to offer
* `State.Advances`: a state that comes later as far as output and input are concerned
* `State.printedSince`, `State.consumedSince`: what was printed and read between two states

## Main results

* `Config.advances_carryOut`: output grows and input is used up in the course of every request
-/

namespace CellC

/-! ### Output -/

/-- From the one printer to the other lines may have been added to the output. -/
def Printer.GrowsTo (printer later : Printer) : Prop :=
  ∃ lines, later = printer.extended lines

namespace Printer.GrowsTo

variable {p q r : Printer}

theorem refl (p : Printer) : p.GrowsTo p := ⟨[], p.extended_nil.symm⟩

theorem trans (h₁ : p.GrowsTo q) (h₂ : q.GrowsTo r) : p.GrowsTo r := by
  obtain ⟨first, rfl⟩ := h₁
  obtain ⟨second, rfl⟩ := h₂
  exact ⟨_, p.extended_extended first second⟩

end Printer.GrowsTo

/-! ### Sources of integers -/

namespace Input

/-- What a line has to offer. -/
def lineReadings (line : List UInt8) : List Reading :=
  match lineText? line with
  | some content => (words content).map .ofWord
  | none => [.unavailable]

/-- The readings that a source has still to offer. -/
def upcoming : Input → List Reading
  | console lines pending => pending.map .ofWord ++ lines.flatMap lineReadings
  | .text pending => pending.map .ofWord
  | numbers values => values.map .value

theorem readLines_eq (lines : List (List UInt8)) :
    (readLines lines).1 = (lines.flatMap lineReadings).headD .unavailable ∧
      (readLines lines).2.upcoming = (lines.flatMap lineReadings).tail := by
  induction lines with
  | nil => exact ⟨rfl, rfl⟩
  | cons line lines ih =>
    rw [List.flatMap_cons, readLines, lineReadings]
    cases lineText? line with
    | none => exact ⟨rfl, rfl⟩
    | some content =>
      dsimp only
      cases words content with
      | nil => exact ih
      | cons word pending => exact ⟨rfl, rfl⟩

/-- A reading is the next one that the source has to offer. -/
theorem read_eq (input : Input) :
    input.read.1 = input.upcoming.headD .unavailable ∧
      input.read.2.upcoming = input.upcoming.tail := by
  match input with
  | console lines [] => exact readLines_eq lines
  | console lines (_ :: _) | .text [] | .text (_ :: _) | numbers [] | numbers (_ :: _) =>
    exact ⟨rfl, rfl⟩

end Input

/-! ### Between two states -/

/-- From the one state to the other output may have grown and input may have been used up. -/
structure State.Advances (s t : State) : Prop where
  printer : s.printer.GrowsTo t.printer
  input : t.input.upcoming <:+ s.input.upcoming

/-- What was printed from the one state to the other. -/
def State.printedSince (s t : State) : List String :=
  t.printer.lines.toList.drop s.printer.lines.size

/-- What was read from the one state to the other. -/
def State.consumedSince (s t : State) : List Reading :=
  s.input.upcoming.take (s.input.upcoming.length - t.input.upcoming.length)

theorem State.printedSince_eq {s t : State} {lines : List String}
    (printed : t.printer = s.printer.extended lines) : s.printedSince t = lines := by
  rw [printedSince, printed]
  simp [Printer.extended]

namespace State.Advances

variable {s t u : State}

theorem of_eq (printer : t.printer = s.printer) (input : t.input = s.input) : s.Advances t :=
  ⟨printer ▸ .refl _, input ▸ List.suffix_rfl⟩

theorem trans (h₁ : s.Advances t) (h₂ : t.Advances u) : s.Advances u :=
  ⟨h₁.printer.trans h₂.printer, h₂.input.trans h₁.input⟩

theorem printer_eq (h : s.Advances t) : t.printer = s.printer.extended (s.printedSince t) := by
  obtain ⟨lines, printed⟩ := h.printer
  rw [State.printedSince_eq printed, printed]

theorem upcoming_eq (h : s.Advances t) :
    s.input.upcoming = s.consumedSince t ++ t.input.upcoming := by
  obtain ⟨readings, consumed⟩ := h.input
  rw [State.consumedSince, ← consumed]
  simp

/-- What was printed is put together from what was printed before a moment and after it. -/
theorem printedSince_trans (h₁ : s.Advances t) (h₂ : t.Advances u) :
    s.printedSince u = s.printedSince t ++ t.printedSince u := by
  obtain ⟨first, printed⟩ := h₁.printer
  obtain ⟨second, printed'⟩ := h₂.printer
  have whole : u.printer = s.printer.extended (first ++ second) := by
    rw [printed', printed, Printer.extended_extended]
  rw [State.printedSince_eq printed, State.printedSince_eq printed', State.printedSince_eq whole]

/-- What was read is put together from what was read before a moment and after it. -/
theorem consumedSince_trans (h₁ : s.Advances t) (h₂ : t.Advances u) :
    s.consumedSince u = s.consumedSince t ++ t.consumedSince u := by
  refine (List.append_left_inj u.input.upcoming).mp ?_
  rw [← (h₁.trans h₂).upcoming_eq, List.append_assoc, ← h₂.upcoming_eq, ← h₁.upcoming_eq]

end State.Advances

namespace Config

variable {config : Config} {levels : Nat} {s s' : State}

/-- A line may go to the output and a reading may be taken from the input; nothing else happens to
them. -/
theorem steps_advances (config : Config) : config.Steps State.Advances where
  remark _ _ _ := .of_eq rfl rfl
  bind _ _ _ := .of_eq rfl rfl
  bindRoot _ _ _ _ := .of_eq rfl rfl
  record _ _ _ := .of_eq rfl rfl
  returning _ _ := .of_eq rfl rfl
  store _ _ _ _ _ _ := .of_eq rfl rfl
  newArray _ _ _ _ _ := .of_eq rfl rfl
  newBlock _ _ _ _ _ := .of_eq rfl rfl
  dispatch _ _ _ _ _ _ _ _ := .of_eq rfl rfl
  free _ _ _ _ _ _ _ _ := .of_eq rfl rfl
  println s line := ⟨⟨_, s.printer.println_eq_extended line⟩, List.suffix_rfl⟩
  read s := ⟨.refl _, s.input.read_eq.2 ▸ List.tail_suffix _⟩

/-- Output grows and input is used up in the course of every request. -/
theorem advances_carryOut {request : Request} {result : Except Fault request.Answer}
    (returned : (config.carryOut levels request).Returns s result s') : s.Advances s' :=
  (config.closed_of_steps config.steps_advances (fun _ => .of_eq rfl rfl) .trans
    (fun _ => .of_eq rfl rfl) fun _ _ _ inside => ⟨inside.printer, inside.input⟩).carryOut
      (fun _ _ => ⟨.refl _, .of_eq rfl rfl⟩) (fun _ _ => ⟨.refl _, .of_eq rfl rfl⟩) returned |>.2

end Config

end CellC
