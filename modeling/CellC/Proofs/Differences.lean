import CellC.Interpreter
import CellC.Proofs.PointerArithmetic

/-!
# Differences of pointers

The type of a sum or difference is determined when it is built, and which operand is scaled when it
is evaluated. Both look at the types of the operands, and both agree that a sum of a pointer and a
number is a pointer, for which the number is scaled. They part on the difference of two pointers:
nothing is scaled, so it is a number of bytes, but its type is that of the pointer on the left, so
that a number added to it is scaled all the same.

## Main definitions

* `TypeTable.Allows`: the operands that the language allows in sums and differences
* `TypeTable.Scales`: one of the operands is to be scaled, as far as their types tell
* `Config.ScalesOperand`: one of the operands is scaled

## Main results

* `Config.scaled_of_scales`, `Config.scaled_of_not_scales`: what scaling does
* `differences_are_pointers`: types and scaling agree on everything but differences of pointers
-/

namespace CellC

namespace TypeTable

variable (table : TypeTable)

/-- The types of operands that the language allows in a sum or a difference. -/
inductive Allows : BinaryOp → TypeId → TypeId → Prop
  | numbers {op left right} : op.adds = true → left.IsInteger → right.IsInteger →
    Allows op left right
  | step {op left right elem} : op.adds = true → table.element? left = some elem →
    right.IsInteger → Allows op left right
  | stepFrom {left right elem} : left.IsInteger → table.element? right = some elem →
    Allows .add left right
  | difference {left right elem elem'} : table.element? left = some elem →
    table.element? right = some elem' → Allows .sub left right

/-- One of the operands is a pointer or an array, and the other counts its elements. -/
def Scales (op : BinaryOp) (left right : TypeId) : Prop :=
  op.adds = true ∧ (table.element? left).isSome ∧ table.element? right = none ∨
    op = .add ∧ table.element? left = none ∧ (table.element? right).isSome

/-- The type is that of a pointer. -/
def IsPointer (type : TypeId) : Prop := ∃ elem, table.layer type = .pointer elem

variable {table} {op : BinaryOp} {left right elem elem' : TypeId}

/-- Of two pointers or arrays none is scaled. -/
theorem not_scales_of_pointers (pointer : table.element? left = some elem)
    (pointer' : table.element? right = some elem') : ¬ table.Scales op left right := by
  rintro (⟨-, -, none⟩ | ⟨-, none, -⟩)
  · rw [pointer'] at none
    cases none
  · rw [pointer] at none
    cases none

/-- Nor is one of two numbers. -/
theorem not_scales_of_numbers (number : table.element? left = none)
    (number' : table.element? right = none) : ¬ table.Scales op left right := by
  rintro (⟨-, some, -⟩ | ⟨-, -, some⟩)
  · rw [number] at some
    cases some
  · rw [number'] at some
    cases some

end TypeTable

namespace Program.Grounded

variable {program : Program} (grounded : program.Grounded) {op : BinaryOp} {left right z : ExprId}
  {type elem elem' : TypeId}
include grounded

/-- Only the difference of two pointers is allowed. -/
theorem op_of_pointers
    (allowed : program.types.Allows op (program.exprType left) (program.exprType right))
    (pointer : program.types.element? (program.exprType left) = some elem)
    (pointer' : program.types.element? (program.exprType right) = some elem') : op = .sub := by
  cases allowed with
  | numbers _ integer _ | stepFrom integer _ =>
    rw [grounded.built.element?_of_integer integer] at pointer
    cases pointer
  | step _ _ integer =>
    rw [grounded.built.element?_of_integer integer] at pointer'
    cases pointer'
  | difference => rfl

variable (found : program.expr? z = some ⟨.binary op left right, type⟩)
  (allowed : program.types.Allows op (program.exprType left) (program.exprType right))
include found allowed

/-- A sum or difference is a number if both operands are, and otherwise a pointer, for which an
operand is scaled unless both are pointers. -/
theorem type_of_allowed :
    type = .int ∧ program.types.element? (program.exprType left) = none ∧
        program.types.element? (program.exprType right) = none ∨
      program.types.IsPointer type ∧
        (program.types.Scales op (program.exprType left) (program.exprType right) ∨
          (program.types.element? (program.exprType left)).isSome ∧
            (program.types.element? (program.exprType right)).isSome) := by
  have number {type : TypeId} (integer : type.IsInteger) : program.types.element? type = none :=
    grounded.built.element?_of_integer integer
  have isPointer {operand elem : TypeId} (pointer : program.types.element? operand = some elem)
      (decayed : program.types.decayed? operand = some type) : program.types.IsPointer type :=
    ⟨elem, TypeTable.layer_of_decayed? pointer decayed⟩
  cases allowed with
  | numbers adds integer integer' =>
    have plain := number integer'
    exact .inl ⟨grounded.type_of_numbers adds found integer plain, number integer, plain⟩
  | step adds pointer integer =>
    exact .inr ⟨isPointer pointer (grounded.decayed_of_left adds found pointer),
      .inl (.inl ⟨adds, Option.isSome_of_eq_some pointer, number integer⟩)⟩
  | stepFrom integer pointer =>
    have plain := number integer
    exact .inr ⟨isPointer pointer (grounded.decayed_of_right found plain pointer),
      .inl (.inr ⟨rfl, plain, Option.isSome_of_eq_some pointer⟩)⟩
  | difference pointer pointer' =>
    exact .inr ⟨isPointer pointer (grounded.decayed_of_left rfl found pointer),
      .inr ⟨Option.isSome_of_eq_some pointer, Option.isSome_of_eq_some pointer'⟩⟩

theorem isPointer_iff : program.types.IsPointer type ↔
    program.types.Scales op (program.exprType left) (program.exprType right) ∨
      (program.types.element? (program.exprType left)).isSome ∧
        (program.types.element? (program.exprType right)).isSome := by
  obtain ⟨rfl, number, number'⟩ | ⟨isPointer, reason⟩ := grounded.type_of_allowed found allowed
  · have layer : program.types.layer .int = .int := grounded.built.layer_of_integer (.inl rfl)
    constructor
    · rintro ⟨elem, same⟩
      rw [layer] at same
      cases same
    · rintro (scales | ⟨pointer, -⟩)
      · exact absurd scales (TypeTable.not_scales_of_numbers number number')
      · rw [number] at pointer
        cases pointer
  · exact ⟨fun _ => reason, fun _ => isPointer⟩

theorem type_of_not_isPointer (number : ¬ program.types.IsPointer type) : type = .int := by
  obtain ⟨int, -⟩ | ⟨isPointer, -⟩ := grounded.type_of_allowed found allowed
  · exact int
  · exact absurd isPointer number

end Program.Grounded

namespace Config

/-- One operand is multiplied by the size of the elements of the other, and that one is left as it
is. -/
def ScalesOperand (config : Config) (op : BinaryOp) (left right : TypeId) : Prop :=
  ∃ elem,
    config.types.element? left = some elem ∧
        (∀ a b, config.scaled op left right a b = (a, b * config.types.stride elem)) ∨
      config.types.element? right = some elem ∧
        ∀ a b, config.scaled op left right a b = (a * config.types.stride elem, b)

variable {config : Config} {op : BinaryOp} {left right : TypeId}

theorem scaled_of_scales (scales : config.types.Scales op left right) :
    config.ScalesOperand op left right := by
  obtain ⟨adds, pointer, number⟩ | ⟨rfl, number, pointer⟩ := scales
  · obtain ⟨elem, pointer⟩ := Option.isSome_iff_exists.mp pointer
    exact ⟨elem, .inl ⟨pointer, scaled_left adds pointer number⟩⟩
  · obtain ⟨elem, pointer⟩ := Option.isSome_iff_exists.mp pointer
    exact ⟨elem, .inr ⟨pointer, scaled_right number pointer⟩⟩

theorem scaled_of_not_scales (plain : ¬ config.types.Scales op left right) (a b : Cell) :
    config.scaled op left right a b = (a, b) := by
  unfold TypeTable.Scales at plain
  cases first : config.types.element? left with
  | none =>
    cases second : config.types.element? right with
    | none => exact scaled_alike (by rw [first, second]) a b
    | some elem =>
      rw [first, second] at plain
      unfold scaled
      rw [first, second]
      cases op with
      | add => exact absurd (.inr ⟨rfl, rfl, rfl⟩) plain
      | sub | assign | mul | div | rem | lt | gt | le | ge | eq | ne | bitAnd | bitOr | logicalAnd
      | logicalOr => rfl
  | some elem =>
    cases second : config.types.element? right with
    | none =>
      rw [first, second] at plain
      unfold scaled
      rw [first, second]
      cases op with
      | add | sub => exact absurd (.inl ⟨rfl, rfl, rfl⟩) plain
      | assign | mul | div | rem | lt | gt | le | ge | eq | ne | bitAnd | bitOr | logicalAnd
      | logicalOr => rfl
    | some elem' => exact scaled_alike (by rw [first, second]; rfl) a b

/-- The difference of two pointers or arrays has the type that the one on the left turns into, and
yields the difference of their cells at that type. -/
theorem pointsAt_difference (grounded : config.program.Grounded) {p q z : ExprId}
    {elem elem' : TypeId} {s : State} {u v : Value}
    (pointer : config.types.element? (config.program.exprType p) = some elem)
    (pointer' : config.types.element? (config.program.exprType q) = some elem')
    (found : config.program.IsForm z (.binary .sub p q)) (first : config.Yields p s u)
    (second : config.Yields q s v) : config.PointsAt p z s (u.cell - v.cell) := by
  obtain ⟨type, found⟩ := found
  refine ⟨?_, ?_⟩ <;> rw [Program.exprType_of_expr? found]
  · exact grounded.decayed_of_left rfl found pointer
  · refine .binary found rfl rfl first second ?_
    rw [scaled_alike (by rw [pointer, pointer']; rfl)]
    rfl

end Config

/-- **Types and scaling of sums and differences.** In all sums and differences that the language
allows, the type is a pointer type exactly if an operand is scaled or if both are pointers or
arrays, and it is that of numbers otherwise. An operand that is scaled is multiplied by the size of
the elements of the other one. Of two pointers or arrays neither is scaled, so that `p - q` yields
the difference of their cells, but it does so as a pointer like `p`. In `(p - q) + k` the number `k`
is therefore scaled by the size of the elements of `p`. -/
theorem differences_are_pointers {config : Config} (grounded : config.program.Grounded)
    {op : BinaryOp} {left right z : ExprId}
    (found : config.program.IsForm z (.binary op left right))
    (allowed : config.types.Allows op (config.program.exprType left)
      (config.program.exprType right)) :
    (config.types.IsPointer (config.program.exprType z) ↔
      config.types.Scales op (config.program.exprType left) (config.program.exprType right) ∨
        (config.types.element? (config.program.exprType left)).isSome ∧
          (config.types.element? (config.program.exprType right)).isSome) ∧
    (¬ config.types.IsPointer (config.program.exprType z) → config.program.exprType z = .int) ∧
    (config.types.Scales op (config.program.exprType left) (config.program.exprType right) →
      config.ScalesOperand op (config.program.exprType left) (config.program.exprType right)) ∧
    (¬ config.types.Scales op (config.program.exprType left) (config.program.exprType right) →
      ∀ a b, config.scaled op (config.program.exprType left) (config.program.exprType right) a b =
        (a, b)) ∧
    ∀ elem elem', config.types.element? (config.program.exprType left) = some elem →
      config.types.element? (config.program.exprType right) = some elem' →
      ¬ config.types.Scales op (config.program.exprType left) (config.program.exprType right) ∧
      ∀ s u v, config.Yields left s u → config.Yields right s v →
        config.PointsAt left z s (u.cell - v.cell) ∧
        ∀ k y w, (config.program.exprType k).IsInteger → config.Yields k s w →
          config.program.IsForm y (.binary .add z k) →
          config.PointsAt left y s
            (config.types.step elem (u.cell - v.cell) w.cell.toInt) := by
  obtain ⟨type, node⟩ := found
  have typed : config.program.exprType z = type := Program.exprType_of_expr? node
  rw [typed]
  refine ⟨grounded.isPointer_iff node allowed, grounded.type_of_not_isPointer node allowed,
    Config.scaled_of_scales, Config.scaled_of_not_scales, fun elem elem' pointer pointer' => ?_⟩
  obtain rfl := grounded.op_of_pointers allowed pointer pointer'
  refine ⟨TypeTable.not_scales_of_pointers pointer pointer', fun s u v first second => ?_⟩
  have difference :=
    Config.pointsAt_difference grounded pointer pointer' ⟨type, node⟩ first second
  refine ⟨difference, fun k y w integer count sum => ?_⟩
  have stepped := Config.pointsAt_add grounded (difference.element? pointer)
    (grounded.built.element?_of_integer integer) difference.yields count sum
  rw [difference.cell_view pointer] at stepped
  exact difference.trans pointer stepped

/-- The steps of a program with two pointers to integers, `p` and `q`, that returns
`(p - q) + 1`. -/
def twoPointersSteps : List Construction :=
  [.type (.pointer .int), .global "p" ⟨3⟩ none, .global "q" ⟨3⟩ none, .expr (.ident ⟨0⟩),
    .expr (.ident ⟨1⟩), .expr (.binary .sub ⟨0⟩ ⟨1⟩), .expr (.intLit 1),
    .expr (.binary .add ⟨2⟩ ⟨3⟩), .function "main" .int, .stmt (.return (some ⟨4⟩)),
    .body ⟨0⟩ ⟨0⟩]

/-- The program, in which the difference is a pointer to integers. -/
def twoPointers : Config where
  program :=
    { names := ⟨⟨#["", "p", "q", "main"]⟩⟩
      types := ⟨⟨#[.int, .char, .void, .pointer .int]⟩⟩
      vars := #[⟨⟨1⟩, ⟨3⟩, none⟩, ⟨⟨2⟩, ⟨3⟩, none⟩]
      exprs := #[⟨.ident ⟨0⟩, ⟨3⟩⟩, ⟨.ident ⟨1⟩, ⟨3⟩⟩, ⟨.binary .sub ⟨0⟩ ⟨1⟩, ⟨3⟩⟩,
        ⟨.intLit 1, .int⟩, ⟨.binary .add ⟨2⟩ ⟨3⟩, ⟨3⟩⟩]
      stmts := #[.return (some ⟨4⟩)]
      funcs := #[⟨⟨3⟩, [], .int, some ⟨0⟩⟩]
      topLevel := #[.variable ⟨0⟩, .variable ⟨1⟩, .function ⟨0⟩] }
  setup := { globals := [⟨0⟩, ⟨1⟩], entry := ⟨0⟩ }

theorem twoPointers_steps :
    (Program.ofConstructions twoPointersSteps).2 = twoPointers.program := by
  decide +kernel

theorem twoPointers_grounded : twoPointers.program.Grounded := by
  have fit : Program.StepsGrounded {} twoPointersSteps := by decide +kernel
  exact twoPointers_steps ▸ Program.grounded_ofConstructions fit

/-- The state in which the pointers are the given addresses. -/
def twoPointersState (p q : Address) : State where
  stack := { root := (Frame.bind {} ⟨0⟩ (.pointer p)).bind ⟨1⟩ (.pointer q) }

theorem twoPointers_yields (p q : Address) :
    twoPointers.Yields ⟨0⟩ (twoPointersState p q) (.pointer p) ∧
    twoPointers.Yields ⟨1⟩ (twoPointersState p q) (.pointer q) ∧
    twoPointers.Yields ⟨3⟩ (twoPointersState p q) (.int 1) := by
  have found : twoPointers.program.expr? ⟨0⟩ = some ⟨.ident ⟨0⟩, ⟨3⟩⟩ ∧
      twoPointers.program.expr? ⟨1⟩ = some ⟨.ident ⟨1⟩, ⟨3⟩⟩ ∧
      twoPointers.program.expr? ⟨3⟩ = some ⟨.intLit 1, .int⟩ := ⟨rfl, rfl, rfl⟩
  exact ⟨.of_expression 0 found.1 rfl (.refl _), .of_expression 0 found.2.1 rfl (.refl _),
    .of_expression 0 found.2.2 rfl (.refl _)⟩

/-- Two pointers that are sixteen bytes apart differ by sixteen, and one more is eight bytes on. -/
theorem differences_are_pointers_twoPointers :
    twoPointers.Yields ⟨2⟩ (twoPointersState ⟨0x1010⟩ ⟨0x1000⟩) (.pointer ⟨16⟩) ∧
    twoPointers.Yields ⟨4⟩ (twoPointersState ⟨0x1010⟩ ⟨0x1000⟩) (.pointer ⟨24⟩) := by
  obtain ⟨first, second, one⟩ := twoPointers_yields ⟨0x1010⟩ ⟨0x1000⟩
  have pointer : twoPointers.types.element? (twoPointers.program.exprType ⟨0⟩) = some .int := rfl
  have pointer' : twoPointers.types.element? (twoPointers.program.exprType ⟨1⟩) = some .int := rfl
  obtain ⟨-, -, -, -, differences⟩ := differences_are_pointers twoPointers_grounded
    (show twoPointers.program.IsForm ⟨2⟩ (.binary .sub ⟨0⟩ ⟨1⟩) from ⟨⟨3⟩, rfl⟩)
    (.difference pointer pointer')
  obtain ⟨difference, sums⟩ := (differences .int .int pointer pointer').2 _ _ _ first second
  have sum := sums ⟨3⟩ ⟨4⟩ _ (.inl rfl) one ⟨⟨3⟩, rfl⟩
  exact ⟨difference.yields, sum.yields⟩

/-- The difference of two pointers is typed as a pointer although neither is scaled, so that one
more than the difference of two null pointers is eight. -/
theorem difference_scaled_twoPointers :
    (Program.ofConstructions twoPointersSteps).2 = twoPointers.program ∧
    twoPointers.types.Allows .sub (twoPointers.program.exprType ⟨0⟩)
      (twoPointers.program.exprType ⟨1⟩) ∧
    ¬ twoPointers.types.Scales .sub (twoPointers.program.exprType ⟨0⟩)
      (twoPointers.program.exprType ⟨1⟩) ∧
    twoPointers.types.IsPointer (twoPointers.program.exprType ⟨2⟩) ∧
    twoPointers.Yields ⟨2⟩ (twoPointersState .null .null) (.pointer ⟨0⟩) ∧
    twoPointers.Yields ⟨3⟩ (twoPointersState .null .null) (.int 1) ∧
    twoPointers.Yields ⟨4⟩ (twoPointersState .null .null) (.pointer ⟨8⟩) ∧
    ∃ interpreter, Interpreter.start twoPointers.program {} = .ok interpreter ∧
      ∃ t, (interpreter.config.run 9).Returns interpreter.state (.ok (.int 8)) t := by
  obtain ⟨first, second, one⟩ := twoPointers_yields .null .null
  have pointer : twoPointers.types.element? (twoPointers.program.exprType ⟨0⟩) = some .int := rfl
  have pointer' : twoPointers.types.element? (twoPointers.program.exprType ⟨1⟩) = some .int := rfl
  have difference : twoPointers.Yields ⟨2⟩ (twoPointersState .null .null) (.pointer ⟨0⟩) :=
    .binary (show twoPointers.program.expr? ⟨2⟩ = some ⟨.binary .sub ⟨0⟩ ⟨1⟩, ⟨3⟩⟩ from rfl) rfl
      rfl first second rfl
  have sum : twoPointers.Yields ⟨4⟩ (twoPointersState .null .null) (.pointer ⟨8⟩) :=
    .binary (show twoPointers.program.expr? ⟨4⟩ = some ⟨.binary .add ⟨2⟩ ⟨3⟩, ⟨3⟩⟩ from rfl) rfl
      rfl difference one rfl
  exact ⟨twoPointers_steps, .difference pointer pointer',
    TypeTable.not_scales_of_pointers pointer pointer', ⟨.int, rfl⟩, difference, one, sum,
    _, rfl, _, rfl⟩

end CellC
