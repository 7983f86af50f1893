import CellC.Proofs.Typing.Known

/-!
# Types of sums and differences

As an operand of a sum or a difference a pointer stays what it is, and an array turns into a pointer
to its elements. A sum or difference of a pointer or an array has that type, whatever the other
operand is, and one of two numbers is a number.

## Main definitions

* `TypeTable.decayed?`: the pointer type that a type turns into
* `TypeId.IsInteger`: the types of numbers

## Main results

* `TypeTable.layer_of_decayed?`: a type turns into a pointer to its elements
* `Program.Origin.decayed_of_left`, `Program.Origin.decayed_of_right`: sums and differences with a
  pointer or an array are such pointers
* `Program.LeadsTo.layer_of_left`: they have the same elements
* `Program.Grounded.decayed_of_left`, `Program.Grounded.decayed_of_right`,
  `Program.Grounded.type_of_numbers`: the types of sums and differences in a finished program
-/

namespace CellC

/-- Whether the operator is that of a sum or a difference. -/
def BinaryOp.adds : BinaryOp → Bool
  | add | sub => true
  | _ => false

/-- The types of numbers. -/
def TypeId.IsInteger (type : TypeId) : Prop := type = .int ∨ type = .char

instance (type : TypeId) : Decidable type.IsInteger := inferInstanceAs (Decidable (_ ∨ _))

theorem TypeId.IsInteger.promoted {type : TypeId} (integer : type.IsInteger) :
    type.promoted = .int := by
  obtain rfl | rfl := integer <;> rfl

/-! ### Operands that turn into pointers -/

namespace TypeTable

variable {table : TypeTable} {type pointer elem : TypeId}

/-- The pointer type that a type turns into as an operand. A pointer type stays what it is, and an
array type turns into the type of pointers to its elements, if the table has that. -/
def decayed? (table : TypeTable) (type : TypeId) : Option TypeId :=
  match table.layer type with
  | .pointer _ => some type
  | .array elem _ => (table.layers.find? (.pointer elem)).map TypeId.mk
  | .int | .char | .void => none

/-- Only pointers and arrays have elements. -/
theorem layer_of_element? (found : table.element? type = some elem) :
    table.layer type = .pointer elem ∨ ∃ len, table.layer type = .array elem len := by
  unfold element? at found
  cases layer : table.layer type with
  | pointer pointee =>
    rw [layer] at found
    cases found
    exact .inl rfl
  | array elem' len =>
    rw [layer] at found
    cases found
    exact .inr ⟨len, rfl⟩
  | int | char | void =>
    rw [layer] at found
    cases found

theorem element?_of_pointer (layer : table.layer type = .pointer elem) :
    table.element? type = some elem := by
  unfold element?
  rw [layer]

theorem decayed?_of_pointer (layer : table.layer type = .pointer elem) :
    table.decayed? type = some type := by
  unfold decayed?
  rw [layer]

/-- Only a type that has been handed out has elements. -/
theorem get?_of_element? (found : table.element? type = some elem) :
    table.layers.get? type.index = some (table.layer type) := by
  cases known : table.layers.get? type.index with
  | none =>
    have int : table.layer type = .int := by rw [layer, known]; rfl
    rw [element?, int] at found
    cases found
  | some stored => rw [layer, known]; rfl

/-- A type turns into a pointer to its elements. -/
theorem layer_of_decayed? (found : table.element? type = some elem)
    (decayed : table.decayed? type = some pointer) : table.layer pointer = .pointer elem := by
  obtain layer | ⟨len, layer⟩ := layer_of_element? found
  · rw [decayed?_of_pointer layer] at decayed
    cases decayed
    exact layer
  · rw [decayed?, layer] at decayed
    obtain ⟨i, there, rfl⟩ := Option.map_eq_some_iff.mp decayed
    rw [TypeTable.layer, Interner.get?_of_find? there, Option.getD_some]

end TypeTable

namespace Program

theorem GrowsInto.decayed? {before after : Program} (h : before.GrowsInto after)
    {type pointer elem : TypeId} (found : before.types.element? type = some elem)
    (decayed : before.types.decayed? type = some pointer) :
    after.types.decayed? type = some pointer := by
  have same := h.layer_eq (TypeTable.get?_of_element? found)
  unfold TypeTable.decayed? at decayed ⊢
  rw [same]
  obtain layer | ⟨len, layer⟩ := TypeTable.layer_of_element? found
  · rwa [layer] at decayed ⊢
  · rw [layer] at decayed ⊢
    obtain ⟨i, there, rfl⟩ := Option.map_eq_some_iff.mp decayed
    exact Option.map_eq_some_iff.mpr ⟨i, Interner.find?_of_kept h.layers there, rfl⟩

/-! ### Types of numbers -/

theorem Built.layer_of_integer {program : Program} (built : program.Built) {type : TypeId}
    (integer : type.IsInteger) :
    program.types.layer type = if type = .char then .char else .int := by
  obtain rfl | rfl := integer
  · have known : ({} : Program).types.layers.get? TypeId.int.index = some .int := rfl
    exact built.growsInto.layer_eq known
  · have known : ({} : Program).types.layers.get? TypeId.char.index = some .char := rfl
    exact built.growsInto.layer_eq known

/-- Numbers have no elements. -/
theorem Built.element?_of_integer {program : Program} (built : program.Built) {type : TypeId}
    (integer : type.IsInteger) : program.types.element? type = none := by
  unfold TypeTable.element?
  rw [built.layer_of_integer integer]
  obtain rfl | rfl := integer <;> rfl

end Program

/-! ### Builders -/

namespace Builder

variable {program : Program} {operand elem : TypeId}

/-- A type with elements turns into a pointer to them, which is added where it is not known. -/
theorem run_pointerType?_some (found : program.types.element? operand = some elem) :
    ∃ pointer after, (pointerType? operand).run program = (some pointer, after) ∧
      after.types.decayed? operand = some pointer := by
  obtain layer | ⟨len, layer⟩ := TypeTable.layer_of_element? found
  · refine ⟨operand, program, ?_, TypeTable.decayed?_of_pointer layer⟩
    simp only [pointerType?, StateT.run_bind, StateT.run_get, pure_bind, layer]
    rfl
  · have turns : (pointerType? operand).run program =
        (some (program.types.intern (.pointer elem)).1,
          { program with types := (program.types.intern (.pointer elem)).2 }) := by
      simp only [pointerType?, StateT.run_bind, StateT.run_get, pure_bind, layer]
      rfl
    refine ⟨_, _, turns, ?_⟩
    have grows := extends_pointerType? operand program
    rw [turns] at grows
    have layer' := grows.toGrowsInto.layer_eq (TypeTable.get?_of_element? found)
    have there : (program.types.layers.intern (.pointer elem)).2.find? (.pointer elem) =
        some (program.types.layers.intern (.pointer elem)).1 := Interner.find?_intern_self
    unfold TypeTable.decayed?
    rw [layer', layer]
    exact Option.map_eq_some_iff.mpr ⟨_, there, rfl⟩

/-- A type without elements does not turn into a pointer. -/
theorem run_pointerType?_none (none : program.types.element? operand = none) :
    (pointerType? operand).run program = (Option.none, program) := by
  cases layer : program.types.layer operand with
  | pointer pointee =>
    rw [TypeTable.element?_of_pointer layer] at none
    cases none
  | array elem len =>
    rw [TypeTable.element?, layer] at none
    cases none
  | int | char | void =>
    simp only [pointerType?, StateT.run_bind, StateT.run_get, pure_bind, layer]
    rfl

variable {after : Program} {op : BinaryOp} {left right : ExprId} {pointer : TypeId}

/-- With a pointer or an array on the left, the type is what that turns into. -/
theorem run_staticType_left (adds : op.adds = true)
    (turns : (pointerType? (program.exprType left)).run program = (some pointer, after)) :
    (staticType (.binary op left right)).run program = (pointer, after) := by
  cases op with
  | add | sub =>
    simp only [staticType, binaryType, StateT.run_bind, StateT.run_get, pure_bind, turns]
    rfl
  | assign | mul | div | rem | lt | gt | le | ge | eq | ne | bitAnd | bitOr | logicalAnd
  | logicalOr => cases adds

/-- With a pointer or an array on the right alone, the type of a sum is what that turns into. -/
theorem run_staticType_right (number : program.types.element? (program.exprType left) = none)
    (turns : (pointerType? (program.exprType right)).run program = (some pointer, after)) :
    (staticType (.binary .add left right)).run program = (pointer, after) := by
  simp only [staticType, binaryType, StateT.run_bind, StateT.run_get, pure_bind,
    run_pointerType?_none number]
  exact congrArg (fun (p : Option TypeId × Program) =>
    (p.1.getD (program.exprType left).promoted, p.2)) turns

/-- Sums and differences of numbers are numbers. -/
theorem run_staticType_numbers (adds : op.adds = true)
    (number : program.types.element? (program.exprType left) = none)
    (number' : program.types.element? (program.exprType right) = none) :
    (staticType (.binary op left right)).run program =
      ((program.exprType left).promoted, program) := by
  have turns := run_pointerType?_none number
  cases op with
  | add =>
    simp only [staticType, binaryType, StateT.run_bind, StateT.run_get, pure_bind, turns]
    exact congrArg (fun (p : Option TypeId × Program) =>
      (p.1.getD (program.exprType left).promoted, p.2)) (run_pointerType?_none number')
  | sub =>
    simp only [staticType, binaryType, StateT.run_bind, StateT.run_get, pure_bind]
    exact congrArg (fun (p : Option TypeId × Program) =>
      (p.1.getD (program.exprType left).promoted, p.2)) turns
  | assign | mul | div | rem | lt | gt | le | ge | eq | ne | bitAnd | bitOr | logicalAnd
  | logicalOr => cases adds

end Builder

/-! ### Expressions -/

namespace Program

section Origins

variable {early program before : Program} {op : BinaryOp} {left right : ExprId}
  {type elem : TypeId}

/-- A sum or difference with a pointer or an array on the left has the type that this turns into. -/
theorem Origin.decayed_of_left (origin : early.Origin program before (.binary op left right) type)
    (adds : op.adds = true) (found : before.types.element? (before.exprType left) = some elem) :
    program.types.decayed? (program.exprType left) = some type := by
  obtain ⟨pointer, after, turns, decayed⟩ := Builder.run_pointerType?_some found
  have typed : (Builder.staticType (.binary op left right)).run before = (pointer, after) :=
    Builder.run_staticType_left adds turns
  have grows := origin.grows
  have type_eq := origin.type
  rw [typed] at grows type_eq
  have grows' := Builder.extends_pointerType? (before.exprType left) before
  rw [turns] at grows'
  rw [origin.growsInto.exprType origin.fits.1, type_eq]
  exact grows.decayed? (grows'.toGrowsInto.element? found) decayed

/-- A sum with a pointer or an array on the right alone has the type that this turns into. -/
theorem Origin.decayed_of_right
    (origin : early.Origin program before (.binary .add left right) type)
    (number : before.types.element? (before.exprType left) = none)
    (found : before.types.element? (before.exprType right) = some elem) :
    program.types.decayed? (program.exprType right) = some type := by
  obtain ⟨pointer, after, turns, decayed⟩ := Builder.run_pointerType?_some found
  have typed := Builder.run_staticType_right number turns
  have grows := origin.grows
  have type_eq := origin.type
  rw [typed] at grows type_eq
  have grows' := Builder.extends_pointerType? (before.exprType right) before
  rw [turns] at grows'
  rw [origin.growsInto.exprType origin.fits.2, type_eq]
  exact grows.decayed? (grows'.toGrowsInto.element? found) decayed

/-- Sums and differences of numbers are numbers. -/
theorem Origin.type_of_numbers
    (origin : early.Origin program before (.binary op left right) type) (adds : op.adds = true)
    (number : before.types.element? (before.exprType left) = none)
    (number' : before.types.element? (before.exprType right) = none) :
    type = (program.exprType left).promoted := by
  rw [origin.type, Builder.run_staticType_numbers adds number number',
    origin.growsInto.exprType origin.fits.1]

end Origins

section Later

variable {early program : Program} {base index z : ExprId} {op : BinaryOp} {elem type : TypeId}
  (later : early.LeadsTo program) (there : base.index < early.exprs.size)
  (pointer : early.types.element? (early.exprType base) = some elem)
include later there pointer

/-- What was a pointer or an array when it was there is one later, with the same elements. -/
theorem LeadsTo.element?_of_there :
    program.types.element? (program.exprType base) = some elem := by
  rw [later.growsInto.exprType there]
  exact later.growsInto.element? pointer

/-- The sum or difference of a pointer or an array and anything else is a pointer. -/
theorem LeadsTo.decayed_of_left (adds : op.adds = true)
    (found : program.expr? z = some ⟨.binary op base index, type⟩)
    (new : early.exprs.size ≤ z.index) :
    program.types.decayed? (program.exprType base) = some type := by
  obtain ⟨before, origin⟩ := later.origin found new (by simp)
  exact origin.decayed_of_left adds (origin.later.element?_of_there there pointer)

/-- It points to the same elements. -/
theorem LeadsTo.layer_of_left (adds : op.adds = true)
    (found : program.expr? z = some ⟨.binary op base index, type⟩)
    (new : early.exprs.size ≤ z.index) : program.types.layer type = .pointer elem :=
  TypeTable.layer_of_decayed? (later.element?_of_there there pointer)
    (later.decayed_of_left there pointer adds found new)

end Later

namespace Grounded

variable {program : Program} (grounded : program.Grounded) {z left right : ExprId} {op : BinaryOp}
  {type elem : TypeId}
include grounded

/-- When an operator got its type, its operands had the elements that they have now. -/
theorem origin_of_binary (found : program.expr? z = some ⟨.binary op left right, type⟩) :
    ∃ before, Origin {} program before (.binary op left right) type ∧
      before.types.element? (before.exprType left) =
        program.types.element? (program.exprType left) ∧
      before.types.element? (before.exprType right) =
        program.types.element? (program.exprType right) := by
  obtain ⟨before, earlier, origin⟩ := grounded.origin found (by simp)
  have kept {operand : ExprId} (there : operand.index < before.exprs.size) :
      before.types.element? (before.exprType operand) =
        program.types.element? (program.exprType operand) := by
    rw [origin.growsInto.exprType there,
      origin.growsInto.element?_eq (earlier.typesKnown.exprType operand)]
  exact ⟨before, origin, kept origin.fits.1, kept origin.fits.2⟩

/-- A sum or difference with a pointer or an array on the left is what this turns into. -/
theorem decayed_of_left (adds : op.adds = true)
    (found : program.expr? z = some ⟨.binary op left right, type⟩)
    (pointer : program.types.element? (program.exprType left) = some elem) :
    program.types.decayed? (program.exprType left) = some type := by
  obtain ⟨before, origin, same, -⟩ := grounded.origin_of_binary found
  exact origin.decayed_of_left adds (same.trans pointer)

/-- A sum with a pointer or an array on the right alone is what this turns into. -/
theorem decayed_of_right (found : program.expr? z = some ⟨.binary .add left right, type⟩)
    (number : program.types.element? (program.exprType left) = none)
    (pointer : program.types.element? (program.exprType right) = some elem) :
    program.types.decayed? (program.exprType right) = some type := by
  obtain ⟨before, origin, same, same'⟩ := grounded.origin_of_binary found
  exact origin.decayed_of_right (same.trans number) (same'.trans pointer)

/-- Sums and differences of numbers are numbers. -/
theorem type_of_numbers (adds : op.adds = true)
    (found : program.expr? z = some ⟨.binary op left right, type⟩)
    (number : (program.exprType left).IsInteger)
    (number' : program.types.element? (program.exprType right) = none) : type = .int := by
  obtain ⟨before, origin, same, same'⟩ := grounded.origin_of_binary found
  rw [← number.promoted]
  exact origin.type_of_numbers adds (same.trans (grounded.built.element?_of_integer number))
    (same'.trans number')

end Grounded

end Program

end CellC
