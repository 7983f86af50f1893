import CellC.Type.Table
import Mathlib.Algebra.BigOperators.Group.List.Basic
import Mathlib.Data.List.Perm.Subperm

/-!
# Nested array types

An array type is some number of array layers over a type that is no array. Its width is the product
of the lengths and the width of what is at the bottom, up to the largest word.

## Main definitions

* `TypeTable.Nested`: the lengths of the array layers of a type, and the type below them
* `TypeTable.scalarWidth`: the width of a type that is no array

## Main results

* `TypeTable.Nested.width`: the width of a nested array type
-/

namespace CellC

namespace TypeTable

/-- Above `elem`, which is no array, the type has array layers of the given lengths, the outermost
first. -/
inductive Nested (table : TypeTable) (elem : TypeId) : TypeId → List Nat → Prop
  | object : table.isArray elem = false → Nested table elem elem []
  | array {type inner len dims} : table.layer type = .array inner len →
      Nested table elem inner dims → Nested table elem type (len.toNat :: dims)

/-- The width of a type that is no array. -/
def scalarWidth (table : TypeTable) (type : TypeId) : Nat :=
  if table.layer type = .char then 1 else 8

theorem scalarWidth_pos (table : TypeTable) (type : TypeId) : 0 < table.scalarWidth type := by
  unfold scalarWidth
  split <;> decide

/-- Beyond the largest word it does not matter when a product is cut off. -/
theorem min_mul_min (bound a n : Nat) : min bound (min bound a * n) = min bound (a * n) := by
  rcases Nat.eq_zero_or_pos n with rfl | some
  · rw [Nat.mul_zero, Nat.mul_zero]
  rcases Nat.le_total a bound with small | large
  · rw [Nat.min_eq_right small]
  · have grows := Nat.le_mul_of_pos_right bound some
    rw [Nat.min_eq_left large, Nat.min_eq_left grows,
      Nat.min_eq_left (Nat.le_trans grows (Nat.mul_le_mul_right n large))]

namespace Nested

variable {table : TypeTable} {elem type : TypeId} {dims : List Nat}

theorem isArray_of_cons {n : Nat} (nested : table.Nested elem type (n :: dims)) :
    table.isArray type = true := by
  cases nested with
  | array layer _ => exact isArray_iff.mpr ⟨_, _, layer⟩

/-- The elements of an array have one layer less. -/
theorem element?_of_cons {n : Nat} (nested : table.Nested elem type (n :: dims)) :
    ∃ inner, table.element? type = some inner ∧ table.Nested elem inner dims := by
  cases nested with
  | array layer nested =>
    unfold element?
    rw [layer]
    exact ⟨_, rfl, nested⟩

/-- What is at the bottom is no array. -/
theorem isArray_elem (nested : table.Nested elem type dims) : table.isArray elem = false := by
  induction nested with
  | object object => exact object
  | array _ _ ih => exact ih

/-- A type has its layers in one way. -/
theorem unique {elem' : TypeId} {dims' : List Nat} (nested : table.Nested elem type dims)
    (nested' : table.Nested elem' type dims') : dims = dims' := by
  induction nested generalizing dims' with
  | object object =>
    cases nested' with
    | object => rfl
    | array layer _ =>
      rw [isArray_iff.mpr ⟨_, _, layer⟩] at object
      cases object
  | array layer _ ih =>
    cases nested' with
    | object object =>
      rw [isArray_iff.mpr ⟨_, _, layer⟩] at object
      cases object
    | array layer' nested' =>
      cases layer.symm.trans layer'
      rw [ih nested']

theorem index_lt {inner : TypeId} {len : UInt64} (layer : table.layer type = .array inner len) :
    type.index < table.layers.size := by
  unfold TypeTable.layer Interner.get? at layer
  cases found : table.layers.entries[type.index]? with
  | none =>
    rw [found] at layer
    cases layer
  | some stored => exact (Array.getElem?_eq_some_iff.mp found).1

/-- The layers have different numbers, since each has one layer less below it than the one above. -/
theorem numbers (nested : table.Nested elem type dims) :
    ∃ numbers : List Nat, numbers.length = dims.length ∧ numbers.Nodup ∧
      ∀ i ∈ numbers, i < table.layers.size ∧
        ∃ rest, table.Nested elem ⟨i⟩ rest ∧ rest.length ≤ dims.length := by
  induction nested with
  | object => exact ⟨[], rfl, .nil, by simp⟩
  | @array type inner len dims layer nested ih =>
    obtain ⟨numbers, length, nodup, all⟩ := ih
    have whole : table.Nested elem type (len.toNat :: dims) := .array layer nested
    refine ⟨type.index :: numbers, by simp [length], ?_, ?_⟩
    · refine List.nodup_cons.mpr ⟨fun repeated => ?_, nodup⟩
      obtain ⟨-, rest, nested', shorter⟩ := all _ repeated
      rw [← whole.unique nested'] at shorter
      exact absurd shorter (Nat.not_succ_le_self _)
    · intro i member
      rcases List.mem_cons.mp member with rfl | member
      · exact ⟨index_lt layer, _, whole, Nat.le_refl _⟩
      · obtain ⟨lt, rest, nested', shorter⟩ := all i member
        exact ⟨lt, rest, nested', Nat.le_succ_of_le shorter⟩

/-- There are no more layers than the table has entries. -/
theorem length_le (nested : table.Nested elem type dims) : dims.length ≤ table.layers.size := by
  obtain ⟨numbers, length, nodup, all⟩ := nested.numbers
  have sub : numbers ⊆ List.range table.layers.size := fun i member =>
    List.mem_range.mpr (all i member).1
  have short := (List.Nodup.subperm nodup sub).length_le
  rwa [length, List.length_range] at short

theorem width_resolveWithin (nested : table.Nested elem type dims) {layers : Nat}
    (deep : dims.length < layers) :
    (table.resolveWithin layers type).width = min maxWord (table.scalarWidth elem * dims.prod) := by
  induction nested generalizing layers with
  | object object =>
    obtain ⟨layers, rfl⟩ := Nat.exists_eq_succ_of_ne_zero (Nat.ne_of_gt deep)
    unfold isArray at object
    unfold resolveWithin scalarWidth
    cases layer : table.layer elem with
    | array inner len =>
      rw [layer] at object
      cases object
    | int | char | void | pointer => simp [CType.width, maxWord]
  | @array type inner len dims layer _ ih =>
    obtain ⟨layers, rfl⟩ := Nat.exists_eq_succ_of_ne_zero (Nat.ne_of_gt (Nat.zero_lt_of_lt deep))
    unfold resolveWithin
    rw [layer]
    dsimp only [CType.width]
    rw [ih (Nat.lt_of_succ_lt_succ deep), min_mul_min, List.prod_cons]
    congr 1
    rw [Nat.mul_assoc, Nat.mul_comm dims.prod]

/-- The width of a nested array type is the product of its lengths and the width of what it is
nested over, as far as that is a word. -/
theorem width (nested : table.Nested elem type dims) :
    table.width type = min maxWord (table.scalarWidth elem * dims.prod) :=
  nested.width_resolveWithin (Nat.lt_succ_of_le nested.length_le)

end Nested

end TypeTable

end CellC
