/-!
# Words and lines

Text is cut into words at the characters of Unicode's `White_Space` property, and bytes are cut into
lines after each line feed.

## Main definitions

* `isBlank`: membership in `White_Space`
* `splitBlank`, `words`: the pieces between blanks, and those that are not empty
* `cutLines`: the lines of a byte sequence, each with its line feed
-/

namespace CellC

/-- The ranges of code points with the property `White_Space`. -/
def blankRanges : List (Nat × Nat) :=
  [(0x9, 0xd), (0x20, 0x20), (0x85, 0x85), (0xa0, 0xa0), (0x1680, 0x1680), (0x2000, 0x200a),
    (0x2028, 0x2029), (0x202f, 0x202f), (0x205f, 0x205f), (0x3000, 0x3000)]

/-- Whether a character has the property `White_Space`. -/
def isBlank (c : Char) : Bool := blankRanges.any fun (low, high) => low ≤ c.toNat && c.toNat ≤ high

/-- The pieces of a text between its blanks; two neighbouring blanks have an empty piece between
them. -/
def splitBlank : List Char → List (List Char)
  | [] => [[]]
  | c :: cs =>
    if isBlank c then [] :: splitBlank cs
    else
      match splitBlank cs with
      | [] => [[c]]
      | piece :: pieces => (c :: piece) :: pieces

/-- The words of a text: its maximal pieces without blanks. -/
def words (text : String) : List String :=
  ((splitBlank text.toList).filter (· ≠ [])).map String.ofList

/-- The line feed, which ends a line. -/
def lineFeed : UInt8 := 10

/-- The lines of a byte sequence, each up to and including its line feed, which the last one may
lack. -/
def cutLines : List UInt8 → List (List UInt8)
  | [] => []
  | byte :: bytes =>
    if byte = lineFeed then [byte] :: cutLines bytes
    else
      match cutLines bytes with
      | [] => [[byte]]
      | line :: lines => (byte :: line) :: lines

theorem splitBlank_ne_nil (cs : List Char) : splitBlank cs ≠ [] := by
  cases cs with
  | nil => simp [splitBlank]
  | cons c cs =>
    rw [splitBlank]
    split
    · simp
    · split <;> simp

/-- Cutting into lines loses nothing. -/
theorem flatten_cutLines (bytes : List UInt8) : (cutLines bytes).flatten = bytes := by
  induction bytes with
  | nil => rfl
  | cons byte bytes ih =>
    rw [cutLines]
    split
    · simp [ih]
    · split
      · next h => rw [h] at ih; rw [← ih]; simp
      · next h => rw [h] at ih; rw [← ih]; simp

end CellC
