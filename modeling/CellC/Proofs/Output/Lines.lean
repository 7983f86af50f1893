import CellC.Semantics.Call
import Mathlib.Data.List.Basic

/-!
# Lines of output

The text of an output determines the lines that were printed, as long as none of them holds a line
feed. This is so of integers in decimal, and no integer is printed like the line that asks for one.

## Main definitions

* `LinesOf`: the lines of a text

## Main results

* `LinesOf.unique`: a text has its lines in one way
* `Cell.text_free`, `Cell.text_ne_promptLine`: the lines on which integers are printed
-/

namespace CellC

variable {α : Type}

/-- The lines of a text, each of which ends with a line feed. -/
structure LinesOf (lines : List String) (text : String) : Prop where
  text_eq : text = unlines lines
  free : ∀ line ∈ lines, '\n' ∉ line.toList

/-- What stands before the first feed and what stands after it. -/
theorem append_feed_inj {feed : α} {a b x y : List α} (free : feed ∉ a) (free' : feed ∉ b)
    (same : a ++ feed :: x = b ++ feed :: y) : a = b ∧ x = y := by
  induction a generalizing b with
  | nil =>
    cases b with
    | nil => exact ⟨rfl, (List.cons.inj same).2⟩
    | cons c b => exact absurd ((List.cons.inj same).1 ▸ List.mem_cons_self) free'
  | cons c a ih =>
    cases b with
    | nil => exact absurd ((List.cons.inj same).1 ▸ List.mem_cons_self) free
    | cons d b =>
      obtain ⟨rfl, rest⟩ := List.cons.inj same
      obtain ⟨rfl, rfl⟩ := ih (mt (List.mem_cons_of_mem _) free)
        (mt (List.mem_cons_of_mem _) free') rest
      exact ⟨rfl, rfl⟩

theorem toList_unlines_cons (line : String) (lines : List String) :
    (unlines (line :: lines)).toList = line.toList ++ '\n' :: (unlines lines).toList := by
  simp [unlines]

/-- A text has its lines in one way. -/
theorem LinesOf.unique {lines lines' : List String} {text : String} (h : LinesOf lines text)
    (h' : LinesOf lines' text) : lines = lines' := by
  obtain ⟨same, free⟩ := h
  obtain ⟨same', free'⟩ := h'
  have chars : (unlines lines).toList = (unlines lines').toList := by rw [← same, same']
  clear same same'
  induction lines generalizing lines' with
  | nil =>
    cases lines' with
    | nil => rfl
    | cons line' lines' =>
      rw [toList_unlines_cons] at chars
      exact absurd chars (by simp [unlines])
  | cons line lines ih =>
    cases lines' with
    | nil =>
      rw [toList_unlines_cons] at chars
      exact absurd chars (by simp [unlines])
    | cons line' lines' =>
      rw [List.forall_mem_cons] at free free'
      rw [toList_unlines_cons, toList_unlines_cons] at chars
      obtain ⟨first, rest⟩ := append_feed_inj free.1 free'.1 chars
      rw [String.toList_inj.mp first, ih free.2 free'.2 rest]

theorem LinesOf.append {lines lines' : List String} {text text' : String}
    (h : LinesOf lines text) (h' : LinesOf lines' text') :
    LinesOf (lines ++ lines') (text ++ text') := by
  refine ⟨?_, fun line member => (List.mem_append.mp member).elim (h.free line) (h'.free line)⟩
  rw [h.text_eq, h'.text_eq]
  simp [unlines, String.join_append]

/-- There are as many lines as line feeds. -/
theorem LinesOf.count_eq {lines : List String} {text : String} (h : LinesOf lines text) :
    text.toList.count '\n' = lines.length := by
  obtain ⟨rfl, free⟩ := h
  induction lines with
  | nil => rfl
  | cons line lines ih =>
    rw [List.forall_mem_cons] at free
    rw [toList_unlines_cons, List.count_append, List.count_cons_self, ih free.2,
      List.count_eq_zero.mpr free.1, Nat.zero_add, List.length_cons]

/-! ### Integers -/

theorem isDigit_of_mem_decimal {n : Int} {c : Char} (member : c ∈ decimal n) :
    c = '-' ∨ c.isDigit = true := by
  have digit {m : Nat} (member : c ∈ Nat.toDigits 10 m) : c.isDigit = true :=
    Nat.isDigit_of_mem_toDigits (by decide) (by decide) member
  unfold decimal at member
  split at member
  · exact (List.mem_cons.mp member).imp id digit
  · exact .inr (digit member)

theorem mem_decimal_of_mem_text {cell : Cell} {c : Char} (member : c ∈ cell.text.toList) :
    c ∈ decimal cell.toInt := by
  simpa [Cell.text, decimalText] using member

/-- An integer is printed on a single line. -/
theorem Cell.text_free (cell : Cell) : '\n' ∉ cell.text.toList := by
  intro member
  have := isDigit_of_mem_decimal (mem_decimal_of_mem_text member)
  revert this
  decide

/-- No integer is printed like the line that asks for one. -/
theorem Cell.text_ne_promptLine (cell : Cell) : cell.text ≠ promptLine := by
  intro same
  have member : 'P' ∈ cell.text.toList := by
    rw [same]
    decide
  have := isDigit_of_mem_decimal (mem_decimal_of_mem_text member)
  revert this
  decide

end CellC
