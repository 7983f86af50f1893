import CellC.Interner

/-!
# Names

Identifiers and string literals are kept once each in a table of names; a declaration stores the
number of its spelling. The empty spelling is always there, under the number zero.
-/

namespace CellC

/-- The number of a spelling. -/
structure Name where
  /-- The position in the table of names. -/
  index : Nat
deriving DecidableEq, Inhabited

namespace Name

/-- The name with the empty spelling. -/
def empty : Name := ⟨0⟩

/-- How diagnostics write the number of a name. -/
def text (name : Name) : String := s!"Name({name.index})"

end Name

/-- The spellings in use. -/
structure NameTable where
  /-- The spellings by number. -/
  spellings : Interner String := ⟨#[""]⟩
deriving DecidableEq

namespace NameTable

/-- What a number that was never handed out is spelled as. -/
def unknown : String := "<unknown>"

/-- The name with the given spelling, which is stored first if it is new. -/
def intern (names : NameTable) (text : String) : Name × NameTable :=
  let (index, spellings) := names.spellings.intern text
  (⟨index⟩, ⟨spellings⟩)

/-- The spelling of a name. -/
def spelling (names : NameTable) (name : Name) : String :=
  (names.spellings.get? name.index).getD unknown

theorem spelling_intern_self (names : NameTable) (text : String) :
    (names.intern text).2.spelling (names.intern text).1 = text := by
  simp [intern, spelling, Interner.get?_intern_self]

end NameTable

end CellC
