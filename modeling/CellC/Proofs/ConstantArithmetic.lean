import CellC.Proofs.PointerArithmetic
import CellC.Proofs.Typing.Static

/-!
# Constant arithmetic

An expression that is built from literals and `sizeof` with parentheses, signs, complements, sums,
differences and products has an exact value, which is an integer of any size. What it evaluates to
is that integer, wrapped around the 64-bit space once: wrapping at every operator makes no
difference, and neither does the type at which each result is read, as every operator turns
characters into numbers.

## Main definitions

* `Constant`: such expressions with the numbers of all their parts
* `Constant.OccursIn`: the parts are in a program under these numbers
* `Constant.value`: the exact value

## Main results

* `Constant.cell_result`: to wrap at every operator is to wrap the exact value
* `Constant.exprType_eq`: everything but a character is a number
* `constant_arithmetic`: what such expressions evaluate to
-/

namespace CellC

/-! ### Operators on integers -/

/-- The operators with one operand that wrap. -/
inductive SignOp
  | plus | neg | complement
deriving DecidableEq

/-- The operators with two operands that wrap. -/
inductive RingOp
  | add | sub | mul
deriving DecidableEq

namespace SignOp

/-- The operator of the language. -/
def toUnary : SignOp → UnaryOp
  | plus => .plus
  | neg => .neg
  | complement => .bitNot

/-- The operator on integers. -/
def onInt : SignOp → Int → Int
  | plus, x => x
  | neg, x => -x
  | complement, x => -x - 1

/-- The operator on cells wraps what the one on integers yields. -/
theorem apply_toUnary (op : SignOp) (x : Int) :
    op.toUnary.apply (Int64.ofInt x) = .ok (Int64.ofInt (op.onInt x)) := by
  cases op with
  | plus => rfl
  | neg => rw [onInt, Int64.ofInt_neg]; rfl
  | complement =>
    rw [onInt, Int64.ofInt_sub, Int64.ofInt_neg]
    exact congrArg Except.ok (Int64.not_eq_neg_sub _)

end SignOp

namespace RingOp

/-- The operator of the language. -/
def toBinary : RingOp → BinaryOp
  | add => .add
  | sub => .sub
  | mul => .mul

/-- The operator on integers. -/
def onInt : RingOp → Int → Int → Int
  | add, x, y => x + y
  | sub, x, y => x - y
  | mul, x, y => x * y

/-- The operator on cells wraps what the one on integers yields. -/
theorem apply_toBinary (op : RingOp) (x y : Int) :
    op.toBinary.apply (Int64.ofInt x) (Int64.ofInt y) = .ok (Int64.ofInt (op.onInt x y)) := by
  cases op with
  | add => rw [onInt, Int64.ofInt_add]; rfl
  | sub => rw [onInt, Int64.ofInt_sub]; rfl
  | mul => rw [onInt, Int64.ofInt_mul]; rfl

theorem supported_toBinary (op : RingOp) : op.toBinary.supported = true := by cases op <;> rfl

theorem assigns_toBinary (op : RingOp) : op.toBinary.assigns = false := by cases op <;> rfl

end RingOp

/-! ### Types of numbers -/

namespace Program.Built

variable {program : Program} (built : program.Built) {z left right : ExprId} {type : TypeId}
include built

/-- A number of either type is promoted by a sign. -/
theorem type_of_sign {op : SignOp} (found : program.expr? z = some ⟨.unary op.toUnary left, type⟩)
    (integer : (program.exprType left).IsInteger) : type = .int := by
  obtain ⟨before, origin⟩ := built.origin found (Nat.zero_le _) (by simp)
  have fits : left.index < before.exprs.size := origin.fits
  have promoted : type = (before.exprType left).promoted := by
    rw [origin.type]
    cases op <;> rfl
  rw [promoted, ← origin.growsInto.exprType fits, integer.promoted]

/-- Sums, differences and products of numbers are numbers. -/
theorem type_of_ring {op : RingOp}
    (found : program.expr? z = some ⟨.binary op.toBinary left right, type⟩)
    (integer : (program.exprType left).IsInteger) (integer' : (program.exprType right).IsInteger) :
    type = .int := by
  obtain ⟨before, origin⟩ := built.origin found (Nat.zero_le _) (by simp)
  have fits : left.index < before.exprs.size ∧ right.index < before.exprs.size := origin.fits
  have same := origin.growsInto.exprType fits.1
  have same' := origin.growsInto.exprType fits.2
  rw [← integer.promoted]
  have sums (adds : op.toBinary.adds = true) : type = (program.exprType left).promoted :=
    origin.type_of_numbers adds (Built.element?_of_integer origin.later (same ▸ integer))
      (Built.element?_of_integer origin.later (same' ▸ integer'))
  cases op with
  | add | sub => exact sums rfl
  | mul =>
    rw [same]
    exact origin.type

end Program.Built

/-! ### Constants -/

/-- An expression without variables, memory and calls. Each part has its number in a program. -/
inductive Constant
  | int (id : ExprId) (n : Cell)
  | char (id : ExprId) (byte : UInt8)
  | sizeOf (id : ExprId) (operand : SizeOfOperand)
  | paren (id : ExprId) (inner : Constant)
  | unary (id : ExprId) (op : SignOp) (operand : Constant)
  | binary (id : ExprId) (op : RingOp) (left right : Constant)

namespace Constant

/-- The number of the whole expression. -/
def id : Constant → ExprId
  | int id _ | char id _ | sizeOf id _ | paren id _ | unary id _ _ | binary id _ _ _ => id

/-- The numbers of all parts. -/
def parts : Constant → List ExprId
  | int id _ | char id _ | sizeOf id _ => [id]
  | paren id inner | unary id _ inner => id :: inner.parts
  | binary id _ left right => id :: (left.parts ++ right.parts)

/-- The parts are expressions of the program. -/
def OccursIn (program : Program) : Constant → Prop
  | int id n => program.IsForm id (.intLit n)
  | char id byte => program.IsForm id (.charLit byte)
  | sizeOf id operand => program.IsForm id (.sizeOf operand)
  | paren id inner => program.IsForm id (.paren inner.id) ∧ inner.OccursIn program
  | unary id op operand =>
    program.IsForm id (.unary op.toUnary operand.id) ∧ operand.OccursIn program
  | binary id op left right =>
    program.IsForm id (.binary op.toBinary left.id right.id) ∧ left.OccursIn program ∧
      right.OccursIn program

/-- The exact value; a character is a signed byte. -/
def value : Constant → Int
  | int _ n => n.toInt
  | char _ byte => byte.toInt8.toInt
  | sizeOf _ _ => 8
  | paren _ inner => inner.value
  | unary _ op operand => op.onInt operand.value
  | binary _ op left right => op.onInt left.value right.value

/-- Whether the expression is a character literal, in parentheses or not. -/
def isCharacter : Constant → Bool
  | char _ _ => true
  | paren _ inner => inner.isCharacter
  | int _ _ | sizeOf _ _ | unary _ _ _ | binary _ _ _ _ => false

/-- The value in the language: a character stays one in parentheses, and anything else is the exact
value, wrapped around. -/
def result : Constant → Value
  | int _ n => .int n
  | char _ byte => .char byte.toInt8
  | sizeOf _ _ => .int 8
  | paren _ inner => inner.result
  | unary _ op operand => .int (Int64.ofInt (op.onInt operand.value))
  | binary _ op left right => .int (Int64.ofInt (op.onInt left.value right.value))

/-- The exact value wraps to the cell. -/
theorem cell_result (tree : Constant) : tree.result.cell = Int64.ofInt tree.value := by
  induction tree with
  | int id n => exact (Int64.ofInt_toInt n).symm
  | char id byte => exact (Int64.ofInt_int8ToInt _).symm
  | sizeOf | unary | binary => rfl
  | paren id inner ih => exact ih

theorem result_eq_int_iff (tree : Constant) :
    tree.result = .int tree.result.cell ↔ tree.isCharacter = false := by
  induction tree with
  | int | sizeOf | unary | binary => exact ⟨fun _ => rfl, fun _ => rfl⟩
  | char id byte => simp [result, isCharacter]
  | paren id inner ih => exact ih

variable {program : Program} {tree : Constant}

/-! ### Types -/

theorem isInteger_of_ite {type : TypeId} {character : Bool}
    (is : type = if character then .char else .int) : type.IsInteger := by
  cases character
  · exact .inl is
  · exact .inr is

/-- Only a character, in parentheses or not, has the type of characters. -/
theorem exprType_eq (built : program.Built) (occurs : tree.OccursIn program) :
    program.exprType tree.id = if tree.isCharacter then .char else .int := by
  have fit := built.typesFit
  induction tree with
  | int id n =>
    obtain ⟨type, found⟩ := occurs
    rw [Constant.id, Program.exprType_of_expr? found, fit.intLit found]
    rfl
  | char id byte =>
    obtain ⟨type, found⟩ := occurs
    rw [Constant.id, Program.exprType_of_expr? found, fit.charLit found]
    rfl
  | sizeOf id operand =>
    obtain ⟨type, found⟩ := occurs
    rw [Constant.id, Program.exprType_of_expr? found, fit.sizeOf found]
    rfl
  | paren id inner ih =>
    obtain ⟨⟨type, found⟩, occurs⟩ := occurs
    rw [Constant.id, Program.exprType_of_expr? found, fit.paren found]
    exact ih occurs
  | unary id op operand ih =>
    obtain ⟨⟨type, found⟩, occurs⟩ := occurs
    rw [Constant.id, Program.exprType_of_expr? found]
    exact built.type_of_sign found (isInteger_of_ite (ih occurs))
  | binary id op left right ihl ihr =>
    obtain ⟨⟨type, found⟩, occurs, occurs'⟩ := occurs
    rw [Constant.id, Program.exprType_of_expr? found]
    exact built.type_of_ring found (isInteger_of_ite (ihl occurs)) (isInteger_of_ite (ihr occurs'))

theorem isInteger (built : program.Built) (occurs : tree.OccursIn program) :
    (program.exprType tree.id).IsInteger :=
  isInteger_of_ite (exprType_eq built occurs)

/-! ### Evaluation -/

/-- A constant evaluates to its value in any state, and only records the values of its parts. -/
theorem evaluates {config : Config} (built : config.program.Built)
    (occurs : tree.OccursIn config.program) (s : State) :
    ∃ t, config.Evaluates tree.id s (.ok tree.result) t ∧ s.SameExcept tree.parts t := by
  have view (cell : Cell) : config.types.view .int cell = .int cell := built.view_int cell
  induction tree generalizing s with
  | int id _ | char id _ | sizeOf id _ =>
    obtain ⟨type, found⟩ := occurs
    exact ⟨_, Config.evaluates_ok found (Config.finishes_pure _ s),
      (State.SameExcept.refl _ s).record List.mem_cons_self _⟩
  | paren id inner ih =>
    obtain ⟨⟨type, found⟩, occurs⟩ := occurs
    obtain ⟨t, evaluated, same⟩ := ih occurs s
    have same := same.mono (List.subset_cons_self id _)
    exact ⟨_, evaluated.paren found, same.record List.mem_cons_self _⟩
  | unary id op operand ih =>
    obtain ⟨⟨type, found⟩, occurs⟩ := occurs
    obtain ⟨t, evaluated, same⟩ := ih occurs s
    obtain rfl := built.type_of_sign found (isInteger built occurs)
    have applied := op.apply_toUnary operand.value
    rw [← operand.cell_result] at applied
    have whole := evaluated.unary found applied
    rw [view] at whole
    have same := same.mono (List.subset_cons_self id _)
    exact ⟨_, whole, same.record List.mem_cons_self _⟩
  | binary id op left right ihl ihr =>
    obtain ⟨⟨type, found⟩, occurs, occurs'⟩ := occurs
    obtain ⟨t, evaluated, same⟩ := ihl occurs s
    obtain ⟨u, evaluated', same'⟩ := ihr occurs' t
    obtain rfl := built.type_of_ring found (isInteger built occurs) (isInteger built occurs')
    have applied := op.apply_toBinary left.value right.value
    rw [← left.cell_result, ← right.cell_result] at applied
    have plain (operand : Constant) (occurs : operand.OccursIn config.program) :
        config.types.element? (config.program.exprType operand.id) = none :=
      built.element?_of_integer (isInteger built occurs)
    have whole := evaluated.binary found op.supported_toBinary op.assigns_toBinary evaluated'
      (by rwa [Config.scaled_alike (by rw [plain left occurs, plain right occurs'])])
    rw [view] at whole
    have both : s.SameExcept (left.parts ++ right.parts) u :=
      (same.mono (List.subset_append_left _ _)).trans (same'.mono (List.subset_append_right _ _))
    have same := both.mono (List.subset_cons_self id _)
    exact ⟨_, whole, same.record List.mem_cons_self _⟩

end Constant

/-- **Constant arithmetic.** Let an expression of any size be built from integer and character
literals, `sizeof`, parentheses, signs, complements, sums, differences and products. From every
state its evaluation succeeds, changes nothing but what is recorded for its parts, and yields a
value whose cell is the exact value of the expression, wrapped around the 64-bit space. The value is
a number unless the expression is a character literal, in parentheses or not. -/
theorem constant_arithmetic {config : Config} (built : config.program.Built) {tree : Constant}
    (occurs : tree.OccursIn config.program) (s : State) :
    ∃ v t, config.Evaluates tree.id s (.ok v) t ∧ s.SameExcept tree.parts t ∧
      v.cell = Int64.ofInt tree.value ∧ ((∃ n, v = .int n) ↔ tree.isCharacter = false) := by
  obtain ⟨t, evaluated, same⟩ := tree.evaluates built occurs s
  refine ⟨tree.result, t, evaluated, same, tree.cell_result, ?_⟩
  rw [← tree.result_eq_int_iff]
  constructor
  · rintro ⟨n, number⟩
    rw [number]
    rfl
  · intro number
    exact ⟨_, number⟩

/-- The steps of a program with the constant `~(('\xc8') * 0x7fffffffffffffff) + sizeof(char)`. -/
def wrappingSteps : List Construction :=
  [.expr (.charLit 200), .expr (.paren ⟨0⟩), .expr (.intLit 0x7fffffffffffffff),
    .expr (.binary .mul ⟨1⟩ ⟨2⟩), .expr (.unary .bitNot ⟨3⟩), .expr (.sizeOf (.type .char)),
    .expr (.binary .add ⟨4⟩ ⟨5⟩)]

/-- The program with this constant alone. -/
def wrapping : Config where
  program :=
    { exprs := #[⟨.charLit 200, .char⟩, ⟨.paren ⟨0⟩, .char⟩, ⟨.intLit 0x7fffffffffffffff, .int⟩,
        ⟨.binary .mul ⟨1⟩ ⟨2⟩, .int⟩, ⟨.unary .bitNot ⟨3⟩, .int⟩, ⟨.sizeOf (.type .char), .int⟩,
        ⟨.binary .add ⟨4⟩ ⟨5⟩, .int⟩] }
  setup := { globals := [], entry := ⟨0⟩ }

/-- The character of the constant, in its parentheses. -/
def wrappingCharacter : Constant := .paren ⟨1⟩ (.char ⟨0⟩ 200)

/-- The whole constant. -/
def wrappingConstant : Constant :=
  .binary ⟨6⟩ .add
    (.unary ⟨4⟩ .complement (.binary ⟨3⟩ .mul wrappingCharacter (.int ⟨2⟩ 0x7fffffffffffffff)))
    (.sizeOf ⟨5⟩ (.type .char))

/-- The product overflows, as does the whole, which wraps to a number. The character stays one. -/
theorem constant_arithmetic_wrapping :
    (Program.ofConstructions wrappingSteps).2 = wrapping.program ∧
    wrappingConstant.value = 56 * 0x8000000000000000 - 49 ∧
    (∃ t, wrapping.Evaluates ⟨6⟩ {} (.ok (.int (-49))) t ∧
      State.SameExcept [⟨6⟩, ⟨4⟩, ⟨3⟩, ⟨1⟩, ⟨0⟩, ⟨2⟩, ⟨5⟩] {} t) ∧
    ∃ v t, wrapping.Evaluates ⟨1⟩ {} (.ok v) t ∧ v.cell = -56 ∧ ¬∃ n, v = .int n := by
  have steps : (Program.ofConstructions wrappingSteps).2 = wrapping.program := by decide +kernel
  have built : wrapping.program.Built :=
    steps ▸ Program.built_ofConstructions (by decide +kernel)
  have character : wrappingCharacter.OccursIn wrapping.program := ⟨⟨.char, rfl⟩, ⟨.char, rfl⟩⟩
  have whole : wrappingConstant.OccursIn wrapping.program :=
    ⟨⟨.int, rfl⟩, ⟨⟨.int, rfl⟩, ⟨.int, rfl⟩, character, ⟨.int, rfl⟩⟩, ⟨.int, rfl⟩⟩
  have value : wrappingConstant.value = 56 * 0x8000000000000000 - 49 := by decide +kernel
  refine ⟨steps, value, ?_, ?_⟩
  · obtain ⟨v, t, evaluated, same, cell, number⟩ := constant_arithmetic built whole {}
    obtain ⟨n, rfl⟩ := number.mpr rfl
    obtain rfl : n = -49 := cell.trans (by rw [value]; decide +kernel)
    exact ⟨t, evaluated, same⟩
  · obtain ⟨v, t, evaluated, -, cell, number⟩ := constant_arithmetic built character {}
    refine ⟨v, t, evaluated, cell.trans (by decide +kernel), fun integer => ?_⟩
    exact absurd (number.mp integer) (by decide)

end CellC
