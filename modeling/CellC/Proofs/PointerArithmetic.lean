import CellC.Proofs.Typing.Sums
import CellC.Proofs.Yields

/-!
# Pointer arithmetic

A sum of a pointer and a number is the pointer so many elements on, whichever operand comes first,
and a difference is the one so many elements back. The number is scaled by the size of an element,
or by the largest cell if that does not fit, and everything wraps around the 64-bit space; so steps
add up and can be undone, however far they go.

## Main definitions

* `Program.IsForm`: an expression of some form
* `TypeTable.step`: the cell so many elements on
* `Config.PointsAt`: an expression yields a cell at the pointer type that an operand turns into

## Main results

* `Config.scaled_left`, `Config.scaled_right`, `Config.scaled_alike`: which operand is scaled
* `Config.pointsAt_left`, `Config.pointsAt_right`: a step from a pointer
* `pointer_arithmetic`: steps in both directions, in a row and undone
-/

namespace CellC

/-- The expression is of the form. -/
def Program.IsForm (program : Program) (id : ExprId) (form : ExprForm) : Prop :=
  ∃ type, program.expr? id = some ⟨form, type⟩

/-- Read as a number, a cell is itself. -/
theorem Program.Built.view_int {program : Program} (built : program.Built) (cell : Cell) :
    program.types.view .int cell = .int cell := by
  have layer : program.types.layer .int = .int := built.layer_of_integer (.inl rfl)
  unfold TypeTable.view
  rw [layer]
  rfl

theorem BinaryOp.supported_of_adds {op : BinaryOp} (adds : op.adds = true) :
    op.supported = true := by
  cases op <;> first | rfl | cases adds

theorem BinaryOp.computes_of_adds {op : BinaryOp} (adds : op.adds = true) :
    op.assigns = false := by
  cases op <;> first | rfl | cases adds

/-! ### Counting elements -/

namespace TypeTable

variable (table : TypeTable) (elem : TypeId) (cell : Cell)

/-- The cell so many elements on, or back if the number is negative. The size of an element counts
as the largest cell if it does not fit, and the result wraps around. -/
def step (n : Int) : Cell :=
  Int64.ofInt (cell.toInt + (min maxCell (table.width elem) : Nat) * n)

theorem step_eq (n : Int) : table.step elem cell n = cell + Int64.ofInt n * table.stride elem := by
  unfold step stride
  rw [Int64.ofInt_add, Int64.ofInt_mul, Int64.ofInt_toInt, Int64.ofInt_eq_ofNat, Int64.mul_comm]

theorem step_toInt (count : Cell) :
    table.step elem cell count.toInt = cell + count * table.stride elem := by
  rw [step_eq, Int64.ofInt_toInt]

theorem step_neg_toInt (count : Cell) :
    table.step elem cell (-count.toInt) = cell - count * table.stride elem := by
  rw [step_eq, Int64.ofInt_neg, Int64.ofInt_toInt, Int64.neg_mul, Int64.sub_eq_add_neg]

/-- Steps in a row add up. -/
theorem step_step (m n : Int) :
    table.step elem (table.step elem cell m) n = table.step elem cell (m + n) := by
  rw [step_eq, step_eq, step_eq, Int64.ofInt_add, Int64.add_mul, Int64.add_assoc]

/-- It makes no difference whether the number of elements has wrapped around. -/
theorem step_toInt_add (count count' : Cell) :
    table.step elem cell (count + count').toInt =
      table.step elem cell (count.toInt + count'.toInt) := by
  rw [step_toInt, step_eq, Int64.ofInt_add, Int64.ofInt_toInt, Int64.ofInt_toInt]

theorem step_zero : table.step elem cell 0 = cell := by
  unfold step
  rw [Int.mul_zero, Int.add_zero, Int64.ofInt_toInt]

/-- A step can be undone. -/
theorem step_back (n : Int) : table.step elem (table.step elem cell n) (-n) = cell := by
  rw [step_step, Int.add_right_neg, step_zero]

end TypeTable

namespace Config

variable {config : Config}

/-! ### Scaling -/

section Scaling

variable {op : BinaryOp} {left right elem : TypeId}

/-- What is added to a pointer or subtracted from it counts elements. -/
theorem scaled_left (adds : op.adds = true) (pointer : config.types.element? left = some elem)
    (number : config.types.element? right = none) (a b : Cell) :
    config.scaled op left right a b = (a, b * config.types.stride elem) := by
  unfold scaled
  rw [pointer, number]
  cases op <;> first | rfl | cases adds

/-- What a pointer is added to counts elements. -/
theorem scaled_right (number : config.types.element? left = none)
    (pointer : config.types.element? right = some elem) (a b : Cell) :
    config.scaled .add left right a b = (a * config.types.stride elem, b) := by
  unfold scaled
  rw [number, pointer]

/-- Nothing is scaled if both operands are pointers or neither one is. -/
theorem scaled_alike (same : (config.types.element? left).isSome =
    (config.types.element? right).isSome) (a b : Cell) :
    config.scaled op left right a b = (a, b) := by
  unfold scaled
  cases first : config.types.element? left with
  | none =>
    cases second : config.types.element? right with
    | none => cases op <;> rfl
    | some elem =>
      rw [first, second] at same
      cases same
  | some elem =>
    cases second : config.types.element? right with
    | none =>
      rw [first, second] at same
      cases same
    | some elem' => cases op <;> rfl

end Scaling

/-! ### Steps -/

/-- The expression `z` has the pointer type that the operand `p` turns into, and yields the cell at
that type. -/
structure PointsAt (config : Config) (p z : ExprId) (s : State) (cell : Cell) : Prop where
  type : config.types.decayed? (config.program.exprType p) = some (config.program.exprType z)
  yields : config.Yields z s (config.types.view (config.program.exprType z) cell)

section Steps

variable {p i z a : ExprId} {elem type : TypeId} {s : State} {u v : Value} {cell cell' : Cell}

section

variable (pointer : config.types.element? (config.program.exprType p) = some elem)
include pointer

theorem PointsAt.layer (h : config.PointsAt p z s cell) :
    config.types.layer (config.program.exprType z) = .pointer elem :=
  TypeTable.layer_of_decayed? pointer h.type

/-- The elements are those that the operand has. -/
theorem PointsAt.element? (h : config.PointsAt p z s cell) :
    config.types.element? (config.program.exprType z) = some elem :=
  TypeTable.element?_of_pointer (h.layer pointer)

theorem PointsAt.cell_view (h : config.PointsAt p z s cell) :
    (config.types.view (config.program.exprType z) cell).cell = cell := by
  unfold TypeTable.view
  rw [h.layer pointer]
  exact Address.toCell_ofCell cell

/-- Where a pointer leads that points where the operand does. -/
theorem PointsAt.trans (h : config.PointsAt p a s cell) (h' : config.PointsAt a z s cell') :
    config.PointsAt p z s cell' := by
  have same := h'.type
  rw [TypeTable.decayed?_of_pointer (h.layer pointer)] at same
  exact ⟨h.type.trans same, h'.yields⟩

end

variable (grounded : config.program.Grounded)
  (pointer : config.types.element? (config.program.exprType p) = some elem)
  (number : config.types.element? (config.program.exprType i) = none)
  (start : config.Yields p s u) (count : config.Yields i s v)
include grounded pointer number start count

/-- A step from the pointer on the left. -/
theorem pointsAt_left {op : BinaryOp} (adds : op.adds = true)
    (found : config.program.IsForm z (.binary op p i))
    (applied : op.apply u.cell (v.cell * config.types.stride elem) = .ok cell) :
    config.PointsAt p z s cell := by
  obtain ⟨type, found⟩ := found
  refine ⟨?_, ?_⟩ <;> rw [Program.exprType_of_expr? found]
  · exact grounded.decayed_of_left adds found pointer
  · refine .binary found (BinaryOp.supported_of_adds adds) (BinaryOp.computes_of_adds adds)
      start count ?_
    rw [scaled_left adds pointer number]
    exact applied

theorem pointsAt_add (found : config.program.IsForm z (.binary .add p i)) :
    config.PointsAt p z s (config.types.step elem u.cell v.cell.toInt) := by
  rw [TypeTable.step_toInt]
  exact pointsAt_left grounded pointer number start count rfl found rfl

theorem pointsAt_sub (found : config.program.IsForm z (.binary .sub p i)) :
    config.PointsAt p z s (config.types.step elem u.cell (-v.cell.toInt)) := by
  rw [TypeTable.step_neg_toInt]
  exact pointsAt_left grounded pointer number start count rfl found rfl

/-- A step from the pointer on the right. -/
theorem pointsAt_right (found : config.program.IsForm z (.binary .add i p)) :
    config.PointsAt p z s (config.types.step elem u.cell v.cell.toInt) := by
  rw [TypeTable.step_toInt, Int64.add_comm]
  obtain ⟨type, found⟩ := found
  refine ⟨?_, ?_⟩ <;> rw [Program.exprType_of_expr? found]
  · exact grounded.decayed_of_right found number pointer
  · refine .binary found rfl rfl count start ?_
    rw [scaled_right number pointer]
    rfl

end Steps

/-- The sum or difference of two numbers is that of their cells. -/
theorem yields_numbers (grounded : config.program.Grounded) {op : BinaryOp} (adds : op.adds = true)
    {i j z : ExprId} {s : State} {u v : Value} {cell : Cell}
    (integer : (config.program.exprType i).IsInteger)
    (number : config.types.element? (config.program.exprType j) = none)
    (first : config.Yields i s u) (second : config.Yields j s v)
    (found : config.program.IsForm z (.binary op i j))
    (applied : op.apply u.cell v.cell = .ok cell) :
    config.program.exprType z = .int ∧ config.Yields z s (.int cell) := by
  obtain ⟨type, found⟩ := found
  obtain rfl := grounded.type_of_numbers adds found integer number
  have plain : config.types.element? (config.program.exprType i) = none :=
    grounded.built.element?_of_integer integer
  have viewed : config.types.view .int cell = .int cell := grounded.built.view_int cell
  refine ⟨Program.exprType_of_expr? found, viewed ▸ .binary found
    (BinaryOp.supported_of_adds adds) (BinaryOp.computes_of_adds adds) first second ?_⟩
  rw [scaled_alike (by rw [plain, number])]
  exact applied

end Config

/-- **Pointer arithmetic.** Let `p` be a pointer or an array and let `i` and `j` be numbers, whose
evaluation succeeds without effects. Then `p + i` and `i + p` have the pointer type that `p` turns
into and yield the cell `i` elements on, and `p - i` yields that `i` elements back. Steps add up, so
`(p + i) + j` and `p + (i + j)` yield the same, and they can be undone: `(p + i) - i` is `p` at that
type. All of this is so however large the elements are and whether or not anything overflows. -/
theorem pointer_arithmetic {config : Config} (grounded : config.program.Grounded) {p i j : ExprId}
    {elem : TypeId} (pointer : config.types.element? (config.program.exprType p) = some elem)
    (integer : (config.program.exprType i).IsInteger)
    (integer' : (config.program.exprType j).IsInteger) {s : State} {u v v' : Value}
    (start : config.Yields p s u) (count : config.Yields i s v) (count' : config.Yields j s v') :
    (∀ z, config.program.IsForm z (.binary .add p i) ∨ config.program.IsForm z (.binary .add i p) →
      config.PointsAt p z s (config.types.step elem u.cell v.cell.toInt)) ∧
    (∀ z, config.program.IsForm z (.binary .sub p i) →
      config.PointsAt p z s (config.types.step elem u.cell (-v.cell.toInt))) ∧
    (∀ a z, config.program.IsForm a (.binary .add p i) →
      config.program.IsForm z (.binary .add a j) →
      config.PointsAt p z s (config.types.step elem u.cell (v.cell.toInt + v'.cell.toInt))) ∧
    (∀ b z, config.program.IsForm b (.binary .add i j) →
      config.program.IsForm z (.binary .add p b) →
      config.PointsAt p z s (config.types.step elem u.cell (v.cell.toInt + v'.cell.toInt))) ∧
    ∀ a z, config.program.IsForm a (.binary .add p i) →
      config.program.IsForm z (.binary .sub a i) → config.PointsAt p z s u.cell := by
  have number : config.types.element? (config.program.exprType i) = none :=
    grounded.built.element?_of_integer integer
  have number' : config.types.element? (config.program.exprType j) = none :=
    grounded.built.element?_of_integer integer'
  refine ⟨?_, ?_, ?_, ?_, ?_⟩
  · rintro z (sum | sum)
    · exact Config.pointsAt_add grounded pointer number start count sum
    · exact Config.pointsAt_right grounded pointer number start count sum
  · exact fun z difference => Config.pointsAt_sub grounded pointer number start count difference
  · intro a z inner outer
    have first := Config.pointsAt_add grounded pointer number start count inner
    have second := Config.pointsAt_add grounded (first.element? pointer) number' first.yields count'
      outer
    rw [first.cell_view pointer, TypeTable.step_step] at second
    exact first.trans pointer second
  · intro b z inner outer
    -- The sum of the numbers may wrap around, which makes no difference to the step.
    obtain ⟨type, sum⟩ := Config.yields_numbers grounded rfl integer number' count count' inner rfl
    have plain : config.types.element? (config.program.exprType b) = none :=
      grounded.built.element?_of_integer (.inl type)
    have whole := Config.pointsAt_add grounded pointer plain start sum outer
    rwa [Value.cell, TypeTable.step_toInt_add] at whole
  · intro a z inner outer
    have first := Config.pointsAt_add grounded pointer number start count inner
    have second := Config.pointsAt_sub grounded (first.element? pointer) number first.yields count
      outer
    rw [first.cell_view pointer, TypeTable.step_back] at second
    exact first.trans pointer second

/-- The steps of a program with a file-scope array `a` of two arrays whose size does not fit a cell,
the number `1 << 62` and the character `-56`, and sums and differences of these. -/
def hugeElementsSteps : List Construction :=
  [.type (.array .int 0x4000000000000000), .type (.array ⟨3⟩ 2), .global "a" ⟨4⟩ none,
    .expr (.ident ⟨0⟩), .expr (.intLit 0x4000000000000000), .expr (.charLit 200),
    .expr (.binary .add ⟨0⟩ ⟨1⟩), .expr (.binary .add ⟨1⟩ ⟨0⟩), .expr (.binary .sub ⟨0⟩ ⟨1⟩),
    .expr (.binary .add ⟨3⟩ ⟨2⟩), .expr (.binary .add ⟨1⟩ ⟨2⟩), .expr (.binary .add ⟨0⟩ ⟨7⟩),
    .expr (.binary .sub ⟨3⟩ ⟨1⟩)]

/-- The program with these expressions, in which sums are pointers to the inner arrays. -/
def hugeElements : Config where
  program :=
    { names := ⟨⟨#["", "a"]⟩⟩
      types := ⟨⟨#[.int, .char, .void, .array .int 0x4000000000000000, .array ⟨3⟩ 2,
        .pointer ⟨3⟩]⟩⟩
      vars := #[⟨⟨1⟩, ⟨4⟩, none⟩]
      topLevel := #[.variable ⟨0⟩]
      exprs := #[⟨.ident ⟨0⟩, ⟨4⟩⟩, ⟨.intLit 0x4000000000000000, .int⟩, ⟨.charLit 200, .char⟩,
        ⟨.binary .add ⟨0⟩ ⟨1⟩, ⟨5⟩⟩, ⟨.binary .add ⟨1⟩ ⟨0⟩, ⟨5⟩⟩, ⟨.binary .sub ⟨0⟩ ⟨1⟩, ⟨5⟩⟩,
        ⟨.binary .add ⟨3⟩ ⟨2⟩, ⟨5⟩⟩, ⟨.binary .add ⟨1⟩ ⟨2⟩, .int⟩, ⟨.binary .add ⟨0⟩ ⟨7⟩, ⟨5⟩⟩,
        ⟨.binary .sub ⟨3⟩ ⟨1⟩, ⟨5⟩⟩] }
  setup := { globals := [⟨0⟩], entry := ⟨0⟩ }

/-- Let the array lie at the address `0x1000`. To add up `1 << 62` and `-56` steps overflows in one
way and in the other, and both ways lead to the same address. The first steps undone lead back to
the array. -/
theorem pointer_arithmetic_hugeElements :
    (Program.ofConstructions hugeElementsSteps).2 = hugeElements.program ∧
    ∃ s : State, hugeElements.Yields ⟨0⟩ s (.array ⟨0x1000⟩) ∧
      hugeElements.Yields ⟨6⟩ s (.pointer ⟨0xc000000000001038⟩) ∧
      hugeElements.Yields ⟨8⟩ s (.pointer ⟨0xc000000000001038⟩) ∧
      hugeElements.Yields ⟨9⟩ s (.pointer ⟨0x1000⟩) := by
  have steps : (Program.ofConstructions hugeElementsSteps).2 = hugeElements.program := by
    decide +kernel
  have fit : Program.StepsGrounded {} hugeElementsSteps := by decide +kernel
  let s : State := { stack := { root := Frame.bind {} ⟨0⟩ (.array ⟨0x1000⟩) } }
  have array : hugeElements.Yields ⟨0⟩ s (.array ⟨0x1000⟩) :=
    .of_expression 0 (show hugeElements.program.expr? ⟨0⟩ = some ⟨.ident ⟨0⟩, ⟨4⟩⟩ from rfl) rfl
      (.refl s)
  have count : hugeElements.Yields ⟨1⟩ s (.int 0x4000000000000000) :=
    .of_expression 0 (show hugeElements.program.expr? ⟨1⟩ =
      some ⟨.intLit 0x4000000000000000, .int⟩ from rfl) rfl (.refl s)
  have count' : hugeElements.Yields ⟨2⟩ s (.char (-56)) :=
    .of_expression 0 (show hugeElements.program.expr? ⟨2⟩ = some ⟨.charLit 200, .char⟩ from rfl) rfl
      (.refl s)
  obtain ⟨-, -, inner, outer, undone⟩ := pointer_arithmetic
    (steps ▸ Program.grounded_ofConstructions fit)
    (show hugeElements.types.element? (hugeElements.program.exprType ⟨0⟩) = some ⟨3⟩ from rfl)
    (.inl rfl) (.inr rfl) array count count'
  refine ⟨steps, s, array, ?_, ?_, ?_⟩
  · exact (inner ⟨3⟩ ⟨6⟩ ⟨⟨5⟩, rfl⟩ ⟨⟨5⟩, rfl⟩).yields
  · exact (outer ⟨7⟩ ⟨8⟩ ⟨.int, rfl⟩ ⟨⟨5⟩, rfl⟩).yields
  · exact (undone ⟨3⟩ ⟨9⟩ ⟨⟨5⟩, rfl⟩ ⟨⟨5⟩, rfl⟩).yields

end CellC
