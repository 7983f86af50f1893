import CellC.Proofs.Typing.Layers
import CellC.Proofs.Typing.NestedTypes

/-!
# Widths of nested types

The width of an array type is found layer by layer: the width of the elements is multiplied by the
length and cut off at the largest word, and the width of the elements is found in the same way. In a
table that grows by interning layers over types that it has handed out, the search comes to an end
at every number, and what it finds is the exact product of all lengths and the width of what lies
below them, cut off once. So a length of zero makes the width zero wherever it stands.

## Main definitions

* `TypeTable.WidthIs`: the width that is found layer by layer

## Main results

* `TypeTable.Descends.exists_nested`: under finitely many array layers every type has one that is no
  array
* `TypeTable.Nested.widthIs`: cutting off layer by layer is cutting off the exact product
* `widths_of_nested_types`: widths in a table that grows by interning
-/

namespace CellC

namespace TypeTable

/-- The width that is found layer by layer, from the inside to the outside. -/
inductive WidthIs (table : TypeTable) : TypeId → Nat → Prop
  | scalar {type} : table.isArray type = false → WidthIs table type (table.scalarWidth type)
  | array {type inner len width} : table.layer type = .array inner len →
      WidthIs table inner width → WidthIs table type (min maxWord (width * len.toNat))

variable {table : TypeTable} {elem type : TypeId} {dims : List Nat}

/-- The search finds one width. -/
theorem WidthIs.unique {width width' : Nat} (h : table.WidthIs type width)
    (h' : table.WidthIs type width') : width = width' := by
  induction h generalizing width' with
  | scalar scalar =>
    cases h' with
    | scalar => rfl
    | array layer _ =>
      rw [isArray_iff.mpr ⟨_, _, layer⟩] at scalar
      cases scalar
  | array layer _ ih =>
    cases h' with
    | scalar scalar =>
      rw [isArray_iff.mpr ⟨_, _, layer⟩] at scalar
      cases scalar
    | array layer' inner =>
      cases layer.symm.trans layer'
      rw [ih inner]

/-- Every layer is over a type with a smaller number, so under the array layers of any type there is
one that is no array. A number that was not handed out stands for such a type itself. -/
theorem Descends.exists_nested (descends : table.Descends) (type : TypeId) :
    ∃ elem dims, table.Nested elem type dims := by
  induction number : type.index using Nat.strongRecOn generalizing type with
  | ind index ih =>
    by_cases array : table.isArray type = true
    · obtain ⟨inner, len, layer⟩ := isArray_iff.mp array
      have known : table.Has type := has_iff.mpr (Nested.index_lt layer)
      obtain ⟨stored, found⟩ := known
      have same : stored = .array inner len := by
        rw [← layer, TypeTable.layer, found, Option.getD_some]
      have smaller : inner.index < type.index := descends _ _ found inner (same ▸ rfl)
      obtain ⟨elem, dims, nested⟩ := ih inner.index (number ▸ smaller) inner rfl
      exact ⟨elem, _, .array layer nested⟩
    · exact ⟨type, [], .object (Bool.eq_false_iff.mpr array)⟩

/-- To cut off after each layer is to cut off the exact product, zero lengths included. -/
theorem Nested.widthIs (nested : table.Nested elem type dims) :
    table.WidthIs type (min maxWord (table.scalarWidth elem * dims.prod)) := by
  induction nested with
  | object object =>
    have fits : table.scalarWidth elem ≤ maxWord := by
      unfold scalarWidth maxWord
      split <;> omega
    rw [List.prod_nil, Nat.mul_one, Nat.min_eq_right fits]
    exact .scalar object
  | @array type inner len dims layer _ ih =>
    have whole := WidthIs.array layer ih
    rwa [min_mul_min, Nat.mul_assoc, Nat.mul_comm dims.prod, ← List.prod_cons] at whole

/-- What is found layer by layer is the width. -/
theorem Nested.widthIs_iff (nested : table.Nested elem type dims) {width : Nat} :
    table.WidthIs type width ↔ width = table.width type := by
  have found := nested.widthIs
  rw [← nested.width] at found
  constructor
  · intro other
    exact other.unique found
  · rintro rfl
    exact found

end TypeTable

/-- **Widths of nested types.** Let a table grow from the one with `int`, `char` and `void` by
interning layers over types that have been handed out. For every number, handed out or not, the
search for the width ends, with the exact product of the lengths of all array layers and the width
of what is below them, cut off at the largest word. What is interned later does not change the width
of a type that has been handed out. -/
theorem widths_of_nested_types {table : TypeTable} (grown : TypeTable.GrowsTo {} table)
    (type : TypeId) :
    (∀ width, table.WidthIs type width ↔ width = table.width type) ∧
    (∃ elem dims, table.Nested elem type dims ∧
      table.width type = min maxWord (table.scalarWidth elem * dims.prod)) ∧
    (table.Has type → ∀ later, table.GrowsTo later → later.width type = table.width type) := by
  have descends := grown.descends TypeTable.descends_empty
  obtain ⟨elem, dims, nested⟩ := descends.exists_nested type
  refine ⟨fun _ => nested.widthIs_iff, ⟨elem, dims, nested, nested.width⟩, ?_⟩
  intro has later grows
  exact congrArg CType.width (grows.resolve_eq descends has)

/-- A table in which an array of arrays is wider than any word, and an array of none of them. -/
def hugeArrays : TypeTable :=
  TypeTable.internAll {}
    [.array .int 0x2000000000000000, .array ⟨3⟩ 0x8000000000000000, .array ⟨4⟩ 0, .array ⟨5⟩ 3]

/-- No array of the huge ones has no width, and neither have three such arrays. A number that has
not been handed out has the width of `int`. -/
theorem widths_of_nested_types_hugeArrays :
    TypeTable.GrowsTo {} hugeArrays ∧ hugeArrays.width ⟨4⟩ = maxWord ∧
      hugeArrays.WidthIs ⟨6⟩ 0 ∧ hugeArrays.WidthIs ⟨7⟩ 8 ∧ hugeArrays.Has ⟨6⟩ ∧
      (hugeArrays.intern (.pointer ⟨6⟩)).2.width ⟨6⟩ = 0 := by
  have grown : TypeTable.GrowsTo {} hugeArrays := .internAll (by decide +kernel)
  have has : hugeArrays.Has ⟨6⟩ := by decide +kernel
  have more : hugeArrays.GrowsTo (hugeArrays.intern (.pointer ⟨6⟩)).2 := .intern .refl has
  obtain ⟨none, -, kept⟩ := widths_of_nested_types grown ⟨6⟩
  obtain ⟨unknown, -⟩ := widths_of_nested_types grown ⟨7⟩
  refine ⟨grown, by decide +kernel, (none 0).mpr ?_, (unknown 8).mpr ?_, has, ?_⟩
  · decide +kernel
  · decide +kernel
  · rw [kept has _ more]
    decide +kernel

end CellC
