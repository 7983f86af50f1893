import CellC.Proofs.Levels
import CellC.Proofs.Places
import CellC.Proofs.Typing.Known
import CellC.Proofs.Typing.NestedTypes
import CellC.Proofs.Typing.Static
import Mathlib.Data.List.Forall2

/-!
# Elements of nested arrays

The elements of an array of arrays lie in row-major order: the last index counts elements, and each
index before it counts rows of everything behind. A subscript per dimension finds the place of an
element. All but the last one stand for rows, which are arrays and hence never loaded.

## Main definitions

* `rowMajor`: the position of an element
* `Config.NestedArray`: a variable that is declared as an array of any depth
* `NestedArray.Locates`: an expression that subscripts the variable, with the indices that come out

## Main results

* `rowMajor_lt`, `rowMajor_inj`: there is a position within the array for each element
* `NestedArray.Locates.evaluates_row`: a row evaluates to its address
* `NestedArray.Locates.element`: the last subscript finds the element
-/

namespace CellC

/-! ### Positions -/

/-- The position of the element with the given indices among all elements of an array with the given
lengths. Indices that are left out count as zero. -/
def rowMajor : List Nat → List Nat → Nat
  | _ :: dims, i :: idx => i * dims.prod + rowMajor dims idx
  | _, _ => 0

section Positions

variable {dims idx idx' : List Nat}

@[simp] theorem rowMajor_nil (dims : List Nat) : rowMajor dims [] = 0 := by
  cases dims <;> rfl

/-- One more index counts rows of the dimensions behind it. -/
theorem rowMajor_append (short : idx.length < dims.length) (i : Nat) :
    rowMajor dims (idx ++ [i]) =
      rowMajor dims idx + i * (dims.drop (idx.length + 1)).prod := by
  induction idx generalizing dims with
  | nil =>
    obtain ⟨n, dims, rfl⟩ := List.exists_cons_of_length_pos short
    simp [rowMajor]
  | cons j idx ih =>
    obtain ⟨n, dims, rfl⟩ := List.exists_cons_of_length_pos (Nat.zero_lt_of_lt short)
    simp only [List.cons_append, rowMajor, List.length_cons, List.drop_succ_cons,
      ih (Nat.lt_of_succ_lt_succ short), Nat.add_assoc]

theorem rowMajor_lt (within : List.Forall₂ (· < ·) idx dims) : rowMajor dims idx < dims.prod := by
  induction within with
  | nil => exact Nat.one_pos
  | @cons i n idx dims lt _ ih =>
    calc
      rowMajor (n :: dims) (i :: idx) < i * dims.prod + dims.prod := Nat.add_lt_add_left ih _
      _ = (i + 1) * dims.prod := (Nat.succ_mul _ _).symm
      _ ≤ n * dims.prod := Nat.mul_le_mul_right _ lt
      _ = (n :: dims).prod := List.prod_cons.symm

/-- Elements with different indices have different positions. -/
theorem rowMajor_inj (within : List.Forall₂ (· < ·) idx dims)
    (within' : List.Forall₂ (· < ·) idx' dims) (same : rowMajor dims idx = rowMajor dims idx') :
    idx = idx' := by
  induction within generalizing idx' with
  | nil =>
    cases within'
    rfl
  | @cons i n idx dims _ rest ih =>
    cases within' with
    | @cons i' _ idx' _ _ rest' =>
      have pos := rowMajor_lt rest
      have pos' := rowMajor_lt rest'
      unfold rowMajor at same
      obtain rfl : i = i' := by
        have quotient (j r : Nat) (lt : r < dims.prod) : (j * dims.prod + r) / dims.prod = j := by
          rw [Nat.mul_comm, Nat.mul_add_div (Nat.zero_lt_of_lt lt), Nat.div_eq_of_lt lt,
            Nat.add_zero]
        rw [← quotient i _ pos, same, quotient i' _ pos']
      rw [ih rest' (Nat.add_left_cancel same)]

/-- The part of an array that some subscripts stand for is no larger than an array with elements. -/
theorem prod_drop_le (nonempty : 0 < dims.prod) (n : Nat) : (dims.drop n).prod ≤ dims.prod := by
  have split : dims.prod = (dims.take n).prod * (dims.drop n).prod := by
    rw [← List.prod_append, List.take_append_drop]
  rw [split] at nonempty ⊢
  exact Nat.le_mul_of_pos_left _ (Nat.pos_of_mul_pos_right nonempty)

end Positions

/-- The state with a value recorded for an expression in the innermost activation. -/
def State.record (s : State) (id : ExprId) (value : Value) : State :=
  { s with stack := s.stack.modifyTop (·.record id value) }

/-- What is recorded for expressions does not concern variables. -/
theorem Config.visibleValue?_record (config : Config) (s : State) (id : ExprId) (value : Value)
    (var : VarId) :
    config.visibleValue? (s.record id value).stack var = config.visibleValue? s.stack var := by
  obtain ⟨⟨root, _ | ⟨frame, calls⟩⟩⟩ := s <;> rfl

namespace Address

theorem ofNat_toNat (address : Address) : ofNat address.toNat = address :=
  congrArg mk (UInt64.ofNat_toNat)

/-- A step of so many strides leads as far as their product, around the address space if need be. -/
theorem offset_mul_ofNat {start i stride : Nat} {position : Cell} (index : position.toInt = i) :
    (ofNat start).offset (position * Int64.ofNat stride) = ofNat (start + i * stride) := by
  have counted : position = Int64.ofNat i := by
    rw [← Int64.ofInt_toInt position, index]
    rfl
  unfold offset ofNat
  congr 1
  rw [counted, ← Int64.ofNat_mul, UInt64.ofNat_add]
  rfl

end Address

namespace Config

/-- A variable that is declared as an array, of any depth, of objects that are no arrays, and that
is no larger than the largest block. -/
structure NestedArray (config : Config) where
  /-- The variable. -/
  var : VarId
  /-- Its declaration. -/
  decl : VarDecl
  /-- The type of the elements. -/
  elem : TypeId
  /-- The lengths, the outermost first. -/
  dims : List Nat
  declared : config.program.var? var = some decl
  nested : config.types.Nested elem decl.type dims
  deep : dims ≠ []
  fits : config.types.scalarWidth elem * dims.prod ≤ Heap.maxBlock

namespace NestedArray

variable {config : Config} (array : config.NestedArray)

/-- The number of bytes of an element. -/
def width : Nat := config.types.scalarWidth array.elem

/-- The number of bytes of the array. -/
def size : Nat := array.width * array.dims.prod

/-- The number of bytes in front of the element, or of the row, with the given indices. -/
def start (idx : List Nat) : Nat := array.width * rowMajor array.dims idx

/-- The address of the element, or of the row, with the given indices, in an array at `base`. -/
def address (base : Address) (idx : List Nat) : Address := .ofNat (base.toNat + array.start idx)

/-- There is an index for each dimension, below its length. -/
def InBounds (idx : List Nat) : Prop := List.Forall₂ (· < ·) idx array.dims

/-- From `s` the subscripts of an expression are evaluated, with `t` as the last state before what
the expression stands for is accessed: the element, or the row, with the given indices of the array
that the variable then stands for. -/
inductive Locates (base : Address) : ExprId → List Nat → State → State → Prop
  | whole {e type s} :
    config.program.expr? e = some ⟨.ident array.var, type⟩ →
    config.visibleValue? s.stack array.var = some (.array base) →
    Locates base e [] s s
  /-- A row may stand in parentheses. -/
  | paren {e inner type idx s t} :
    config.program.expr? e = some ⟨.paren inner, type⟩ →
    Locates base inner idx s t → idx.length < array.dims.length →
    Locates base e idx s (t.record inner (.array (array.address base idx)))
  /-- The index is evaluated after the row has been recorded. -/
  | part {e row x type idx v s t u} {i : Nat} :
    config.program.expr? e = some ⟨.index row x, type⟩ →
    Locates base row idx s t →
    config.Evaluates x (t.record row (.array (array.address base idx))) (.ok v) u →
    v.cell.toInt = i →
    Locates base e (idx ++ [i]) s u

theorem size_le : array.size ≤ Heap.maxBlock := array.fits

theorem address_nil (base : Address) : array.address base [] = base := by
  unfold address start
  rw [rowMajor_nil, Nat.mul_zero, Nat.add_zero, Address.ofNat_toNat]

variable {array} {base : Address} {idx idx' : List Nat}

theorem InBounds.length (within : array.InBounds idx) : idx.length = array.dims.length :=
  List.Forall₂.length_eq within

theorem InBounds.prod_pos (within : array.InBounds idx) : 0 < array.dims.prod :=
  Nat.zero_lt_of_lt (rowMajor_lt within)

/-- An element lies within the array. -/
theorem InBounds.start_add_le (within : array.InBounds idx) :
    array.start idx + array.width ≤ array.size := by
  unfold start size
  rw [← Nat.mul_succ]
  exact Nat.mul_le_mul_left _ (rowMajor_lt within)

/-- Different elements lie apart. -/
theorem InBounds.apart (within : array.InBounds idx) (within' : array.InBounds idx')
    (other : idx ≠ idx') :
    array.start idx + array.width ≤ array.start idx' ∨
      array.start idx' + array.width ≤ array.start idx := by
  have positions : rowMajor array.dims idx ≠ rowMajor array.dims idx' := fun same =>
    other (rowMajor_inj within within' same)
  unfold start
  rw [← Nat.mul_succ, ← Nat.mul_succ]
  rcases Nat.lt_or_gt_of_ne positions with lt | lt
  · exact .inl (Nat.mul_le_mul_left _ lt)
  · exact .inr (Nat.mul_le_mul_left _ lt)

/-- Neighbouring parts of the array are as far apart as they are wide: no width is cut off. -/
theorem stride_eq {row : TypeId} {n : Nat}
    (nested : config.types.Nested array.elem row (array.dims.drop n))
    (part : (array.dims.drop n).prod ≤ array.dims.prod) :
    config.types.stride row = Int64.ofNat (array.width * (array.dims.drop n).prod) := by
  have small : array.width * (array.dims.drop n).prod ≤ Heap.maxBlock :=
    Nat.le_trans (Nat.mul_le_mul_left _ part) array.size_le
  have cell : Heap.maxBlock ≤ maxCell := by decide
  have word : Heap.maxBlock ≤ maxWord := by decide
  unfold TypeTable.stride
  rw [nested.width]
  unfold width at small ⊢
  rw [Nat.min_eq_right (Nat.le_trans small word), Nat.min_eq_right (Nat.le_trans small cell)]

namespace Locates

variable (grounded : config.program.Grounded) (nonempty : 0 < array.dims.prod) {e row x : ExprId}
  {type : TypeId} {i : Nat} {s t u : State}
include grounded nonempty

/-- A subscript of a row finds the part of it that the index says. -/
theorem subscript (found : config.program.expr? e = some ⟨.index row x, type⟩) {v : Value}
    (short : idx.length < array.dims.length)
    (nested : config.types.Nested array.elem (config.program.exprType row)
      (array.dims.drop idx.length))
    (evaluated : config.Evaluates row s (.ok (.array (array.address base idx))) t)
    (index : config.Evaluates x t (.ok v) u) (value : v.cell.toInt = i) :
    config.types.Nested array.elem type (array.dims.drop (idx.length + 1)) ∧
      ∃ levels, (config.subscript (CellC.eval config levels) row x).Returns s
        (.ok (array.address base (idx ++ [i]))) u := by
  rw [List.drop_eq_getElem_cons short] at nested
  obtain ⟨inner, element, nested⟩ := nested.element?_of_cons
  obtain rfl : type = inner := by
    have typed := (grounded.base_of_index found).2
    rw [typed]
    exact congrArg (·.getD .int) element
  have place : (array.address base idx).offset
      (v.cell * config.elementStride (config.program.exprType row)) =
        array.address base (idx ++ [i]) := by
    unfold elementStride
    rw [element, Option.getD_some, stride_eq nested (prod_drop_le nonempty _)]
    unfold address
    rw [Address.offset_mul_ofNat value]
    unfold start
    rw [rowMajor_append short, Nat.mul_add, Nat.add_assoc, Nat.mul_left_comm]
  refine ⟨nested, ?_⟩
  obtain ⟨levels, evaluated⟩ := evaluated
  obtain ⟨levels', index⟩ := index
  refine ⟨max levels levels', ?_⟩
  have first := eval_mono (Nat.le_max_left levels levels') row _ _ _ evaluated
  have second := eval_mono (Nat.le_max_right levels levels') x _ _ _ index
  rw [← place, ← Address.ofCell_toCell (array.address base idx)]
  refine Action.returns_bind_iff.mpr (.inl ⟨_, t, first, ?_⟩)
  exact Action.returns_bind_iff.mpr (.inl ⟨_, u, second, rfl⟩)

/-- A row evaluates to its address and is recorded as such. -/
theorem evaluates_row (located : array.Locates base e idx s t)
    (short : idx.length < array.dims.length) :
    config.types.Nested array.elem (config.program.exprType e) (array.dims.drop idx.length) ∧
      config.Evaluates e s (.ok (.array (array.address base idx)))
        (t.record e (.array (array.address base idx))) := by
  have types := grounded.built.typesFit
  induction located with
  | @whole e type s found visible =>
    have typed : config.program.exprType e = array.decl.type := by
      rw [Program.exprType_of_expr? found, types.ident found,
        Program.varType_of_var? array.declared]
    rw [typed, address_nil]
    refine ⟨array.nested, 1, returns_eval_ok found ?_⟩
    show (config.varValue array.var).Returns s _ s
    unfold Action.Returns varValue
    rw [Action.run_get_bind, visible]
    rfl
  | @paren e inner type idx s t found _ _ ih =>
    obtain ⟨nested, levels, evaluated⟩ := ih short
    rw [Program.exprType_of_expr? found, types.paren found]
    exact ⟨nested, levels + 1, returns_eval_ok found evaluated⟩
  | @part e row x type idx v s t u i found _ index value ih =>
    rw [List.length_append, List.length_singleton] at short ⊢
    obtain ⟨outer, evaluated⟩ := ih (Nat.lt_of_succ_lt short)
    obtain ⟨nested, levels, place⟩ := subscript grounded nonempty found (Nat.lt_of_succ_lt short)
      outer evaluated index value
    rw [Program.exprType_of_expr? found]
    refine ⟨nested, levels + 1, returns_eval_ok found ?_⟩
    have isArray : config.types.isArray type = true := by
      rw [List.drop_eq_getElem_cons short] at nested
      exact nested.isArray_of_cons
    refine Action.returns_bind_iff.mpr (.inl ⟨_, u, place, ?_⟩)
    unfold loadAt
    rw [isArray]
    rfl

/-- The last subscript finds the element, which has the type of the elements. -/
theorem element (located : array.Locates base e idx s t) (full : idx.length = array.dims.length) :
    ∃ row x, config.program.expr? e = some ⟨.index row x, array.elem⟩ ∧
      ∃ levels, (config.subscript (CellC.eval config levels) row x).Returns s
        (.ok (array.address base idx)) t := by
  cases located with
  | whole =>
    have none : array.dims = [] := List.eq_nil_of_length_eq_zero full.symm
    exact absurd none array.deep
  | paren _ _ short => exact absurd full (Nat.ne_of_lt short)
  | @part _ row x type idx v _ t _ i found above index value =>
    rw [List.length_append, List.length_singleton] at full
    have short : idx.length < array.dims.length := full ▸ Nat.lt_succ_self _
    obtain ⟨outer, evaluated⟩ := above.evaluates_row grounded nonempty short
    obtain ⟨nested, place⟩ := subscript grounded nonempty found short outer evaluated index value
    rw [full, List.drop_length] at nested
    cases nested with
    | object => exact ⟨row, x, found, place⟩

end Locates

end NestedArray

end Config

end CellC
