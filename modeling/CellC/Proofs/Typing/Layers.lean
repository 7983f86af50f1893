import CellC.Proofs.Typing.Known

/-!
# Tables that grow

A table grows by interning layers over types that it has handed out. Then every type is made of
types with smaller numbers, so its structure is found within as many layers as its number says, and
nothing that is interned later changes the structure, the width or the text of a type that has been
handed out.

## Main definitions

* `TypeTable.GrowsTo`: a table that interning leads to
* `TypeTable.internAll`: the table after layers were interned one after the other
* `TypeTable.Descends`: types are made of types with smaller numbers

## Main results

* `TypeTable.GrowsTo.resolve_eq`: a type that has been handed out keeps its structure
* `TypeTable.Descends.resolve_eq`: the structure of a type, layer by layer
* `TypeTable.Descends.resolve_inj`: no structure is stored twice
* `Program.types_growsTo_run`: a step of building a program makes its table grow
-/

namespace CellC

/-- The type below a layer. -/
def TypeLayer.element? : TypeLayer → Option TypeId
  | pointer type | array type _ => some type
  | int | char | void => none

theorem TypeLayer.fits_iff {table : TypeTable} {layer : TypeLayer} :
    layer.Fits table ↔ ∀ type, layer.element? = some type → table.Has type := by
  cases layer <;> simp [Fits, element?]

namespace TypeTable

/-- Layers were interned, one after the other, over types that had been handed out. -/
inductive GrowsTo (table : TypeTable) : TypeTable → Prop
  | refl : GrowsTo table table
  | intern {later : TypeTable} {layer : TypeLayer} : GrowsTo table later → layer.Fits later →
    GrowsTo table (later.intern layer).2

/-- The table after layers were interned one after the other. -/
def internAll (table : TypeTable) : List TypeLayer → TypeTable
  | [] => table
  | layer :: layers => (table.intern layer).2.internAll layers

/-- Each layer is over a type that has been handed out when it is its turn. -/
def LayersFit (table : TypeTable) : List TypeLayer → Prop
  | [] => True
  | layer :: layers => layer.Fits table ∧ (table.intern layer).2.LayersFit layers

instance decidableLayersFit : (table : TypeTable) → (layers : List TypeLayer) →
    Decidable (table.LayersFit layers)
  | _, [] => inferInstanceAs (Decidable True)
  | table, layer :: layers =>
    have := decidableLayersFit (table.intern layer).2 layers
    inferInstanceAs (Decidable (layer.Fits table ∧ _))

/-- Every type is made of types with smaller numbers. -/
def Descends (table : TypeTable) : Prop :=
  ∀ index layer, table.layers.get? index = some layer →
    ∀ type, layer.element? = some type → type.index < index

theorem has_iff {table : TypeTable} {type : TypeId} :
    table.Has type ↔ type.index < table.layers.size := by
  unfold Has Interner.get? Interner.size
  exact ⟨fun ⟨_, found⟩ => (Array.getElem?_eq_some_iff.mp found).1,
    fun lt => ⟨_, Array.getElem?_eq_getElem lt⟩⟩

theorem descends_empty : Descends {} := by
  intro index layer found type element
  match index, found with
  | 0, found | 1, found | 2, found => cases found; cases element

/-- A layer over a type that has been handed out gets a greater number than that type. -/
theorem Descends.intern {table : TypeTable} (descends : table.Descends) {layer : TypeLayer}
    (fits : layer.Fits table) : (table.intern layer).2.Descends := by
  intro index stored found type element
  have found : (table.layers.intern layer).2.get? index = some stored := found
  cases there : table.layers.find? layer with
  | some i =>
    rw [Interner.intern_of_find? there] at found
    exact descends index stored found type element
  | none =>
    rw [Interner.intern_of_find?_none there] at found
    unfold Interner.get? at found
    rw [Array.getElem?_push] at found
    split at found
    · next last =>
      cases found
      rw [last]
      exact has_iff.mp (TypeLayer.fits_iff.mp fits type element)
    · exact descends index stored found type element

namespace GrowsTo

variable {table later last : TypeTable}

theorem trans (h : table.GrowsTo later) (h' : later.GrowsTo last) : table.GrowsTo last := by
  induction h' with
  | refl => exact h
  | intern _ fits ih => exact .intern ih fits

/-- Interning layers over types that have been handed out makes a table grow. -/
theorem internAll {layers : List TypeLayer} (fit : table.LayersFit layers) :
    table.GrowsTo (table.internAll layers) := by
  induction layers generalizing table with
  | nil => exact .refl
  | cons layer layers ih => exact (GrowsTo.intern .refl fit.1).trans (ih fit.2)

theorem get? (h : table.GrowsTo later) {index : Nat} {layer : TypeLayer}
    (found : table.layers.get? index = some layer) : later.layers.get? index = some layer := by
  induction h with
  | refl => exact found
  | intern _ _ ih => exact Interner.get?_intern_of_some ih

theorem has (h : table.GrowsTo later) {type : TypeId} (has : table.Has type) :
    later.Has type := by
  obtain ⟨layer, found⟩ := has
  exact ⟨layer, h.get? found⟩

theorem descends (h : table.GrowsTo later) (descends : table.Descends) : later.Descends := by
  induction h with
  | refl => exact descends
  | intern _ fits ih => exact ih.intern fits

theorem layer_eq (h : table.GrowsTo later) {type : TypeId} (has : table.Has type) :
    later.layer type = table.layer type := by
  obtain ⟨stored, found⟩ := has
  unfold layer
  rw [found, h.get? found]

/-- The structure of a type is found within as many layers as its number says, and interning does
not change it. -/
theorem resolveWithin_eq (h : table.GrowsTo later) (descends : table.Descends) {type : TypeId}
    (has : table.Has type) {m n : Nat} (enough : type.index < m) (enough' : type.index < n) :
    later.resolveWithin m type = table.resolveWithin n type := by
  induction m generalizing n type with
  | zero => exact absurd enough (Nat.not_lt_zero _)
  | succ m ih =>
    obtain ⟨n, rfl⟩ := Nat.exists_eq_succ_of_ne_zero (Nat.ne_of_gt (Nat.zero_lt_of_lt enough'))
    obtain ⟨layer, found⟩ := has
    have same : table.layer type = layer := by
      unfold TypeTable.layer
      rw [found, Option.getD_some]
    have below (elem : TypeId) (element : layer.element? = some elem) :
        later.resolveWithin m elem = table.resolveWithin n elem := by
      have smaller := descends _ _ found elem element
      refine ih (has_iff.mpr ?_) (by omega) (by omega)
      exact Nat.lt_trans smaller (has_iff.mp ⟨layer, found⟩)
    unfold resolveWithin
    rw [h.layer_eq ⟨layer, found⟩, same]
    cases layer with
    | int | char | void => rfl
    | pointer pointee => exact congrArg CType.pointer (below pointee rfl)
    | array elem len => exact congrArg (CType.array · len) (below elem rfl)

/-- A type that has been handed out keeps its structure. -/
theorem resolve_eq (h : table.GrowsTo later) (descends : table.Descends) {type : TypeId}
    (has : table.Has type) : later.resolve type = table.resolve type :=
  h.resolveWithin_eq descends has (Nat.lt_succ_of_lt (has_iff.mp (h.has has)))
    (Nat.lt_succ_of_lt (has_iff.mp has))

end GrowsTo

/-! ### Structures -/

section Structures

variable {table : TypeTable}

/-- The structure of a type with the given outermost layer. -/
def structureOf (table : TypeTable) : TypeLayer → CType
  | .int => .int
  | .char => .char
  | .void => .void
  | .pointer pointee => .pointer (table.resolve pointee)
  | .array elem len => .array (table.resolve elem) len

/-- What is below a layer has been handed out before it. -/
theorem Descends.below (descends : table.Descends) {type elem : TypeId}
    (element : (table.layer type).element? = some elem) :
    elem.index < type.index ∧ table.Has elem := by
  cases found : table.layers.get? type.index with
  | none =>
    rw [layer, found] at element
    cases element
  | some stored =>
    rw [layer, found, Option.getD_some] at element
    have smaller := descends _ _ found elem element
    exact ⟨smaller, has_iff.mpr (Nat.lt_trans smaller (has_iff.mp ⟨stored, found⟩))⟩

/-- The structure of a type is its outermost layer over the structure of what is below. -/
theorem Descends.resolve_eq (descends : table.Descends) (type : TypeId) :
    table.resolve type = table.structureOf (table.layer type) := by
  have below {elem : TypeId} (element : (table.layer type).element? = some elem) :
      table.resolveWithin table.layers.size elem = table.resolve elem := by
    obtain ⟨-, has⟩ := descends.below element
    have lt := has_iff.mp has
    exact GrowsTo.refl.resolveWithin_eq descends has lt (Nat.lt_succ_of_lt lt)
  show table.resolveWithin (table.layers.size + 1) type = _
  rw [resolveWithin]
  cases outermost : table.layer type with
  | int | char | void => rfl
  | pointer pointee => exact congrArg CType.pointer (below (outermost ▸ rfl))
  | array elem len => exact congrArg (CType.array · len) (below (outermost ▸ rfl))

theorem distinct_empty : ({} : TypeTable).layers.Distinct := by
  intro i j layer here there
  match i, here with
  | 0, here | 1, here | 2, here =>
    cases here
    match j, there with
    | 0, there | 1, there | 2, there => first | rfl | cases there

theorem GrowsTo.distinct {later : TypeTable} (h : table.GrowsTo later)
    (distinct : table.layers.Distinct) : later.layers.Distinct := by
  induction h with
  | refl => exact distinct
  | intern _ _ ih => exact ih.intern

/-- Types with the same outermost layer are the same. -/
theorem eq_of_layer (distinct : table.layers.Distinct) {a b : TypeId} (has : table.Has a)
    (has' : table.Has b) (same : table.layer a = table.layer b) : a = b := by
  obtain ⟨layer, found⟩ := has
  obtain ⟨layer', found'⟩ := has'
  unfold TypeTable.layer at same
  rw [found, found', Option.getD_some, Option.getD_some] at same
  exact congrArg TypeId.mk (distinct found (same ▸ found'))

/-- No structure is stored twice, since neither is a layer. -/
theorem Descends.resolve_inj (descends : table.Descends) (distinct : table.layers.Distinct)
    {a b : TypeId} (has : table.Has a) (has' : table.Has b)
    (same : table.resolve a = table.resolve b) : a = b := by
  induction number : a.index using Nat.strongRecOn generalizing a b with
  | ind index ih =>
    apply eq_of_layer distinct has has'
    rw [descends.resolve_eq, descends.resolve_eq] at same
    have below {elem elem' : TypeId} (element : (table.layer a).element? = some elem)
        (element' : (table.layer b).element? = some elem')
        (same : table.resolve elem = table.resolve elem') : elem = elem' := by
      obtain ⟨smaller, has⟩ := descends.below element
      exact ih elem.index (number ▸ smaller) has (descends.below element').2 same rfl
    cases first : table.layer a with
    | int | char | void =>
      rw [first] at same
      cases second : table.layer b <;> rw [second] at same <;>
        first | rfl | exact CType.noConfusion same
    | pointer pointee =>
      rw [first] at same below
      cases second : table.layer b with
      | pointer pointee' =>
        rw [second] at same below
        rw [below rfl rfl (CType.pointer.inj same)]
      | int | char | void | array => rw [second] at same; exact CType.noConfusion same
    | array elem len =>
      rw [first] at same below
      cases second : table.layer b with
      | array elem' len' =>
        rw [second] at same below
        obtain ⟨sameBelow, sameLength⟩ := CType.array.inj same
        rw [below rfl rfl sameBelow, sameLength]
      | int | char | void | pointer => rw [second] at same; exact CType.noConfusion same

end Structures

end TypeTable

/-! ### Builders -/

namespace Builder

variable {program : Program} (known : program.TypesKnown)
include known

theorem types_growsTo_pointerType? (operand : TypeId) :
    program.types.GrowsTo ((pointerType? operand).run program).2.types := by
  unfold pointerType?
  simp only [StateT.run_bind, StateT.run_get, pure_bind]
  cases layer : program.types.layer operand with
  | pointer | int | char | void => exact .refl
  | array elem len =>
    have element : program.types.element? operand = some elem := by
      unfold TypeTable.element?
      rw [layer]
    exact .intern .refl (known.element? element)

theorem types_growsTo_binaryType (op : BinaryOp) {left right : TypeId}
    (has : program.types.Has left) :
    program.types.GrowsTo ((binaryType op left right).run program).2.types := by
  cases op with
  | assign | mul | div | rem | bitAnd | bitOr => exact .refl
  | lt | gt | le | ge | eq | ne | logicalAnd | logicalOr => exact .refl
  | sub => exact types_growsTo_pointerType? known left
  | add =>
    have first := types_growsTo_pointerType? known left
    obtain ⟨knownAfter, -⟩ := typesKnown_pointerType? known has
    unfold binaryType
    dsimp only
    rw [StateT.run_bind]
    rcases turned : (pointerType? left).run program with ⟨_ | pointer, after⟩ <;>
      rw [turned] at first knownAfter
    · exact first.trans (types_growsTo_pointerType? knownAfter _)
    · exact first

theorem types_growsTo_staticType {form : ExprForm} (fits : form.TypesFit program.types) :
    program.types.GrowsTo ((staticType form).run program).2.types := by
  cases form with
  | ident | intLit | sizeOf | charLit | paren | index | call | cast => exact .refl
  | strLit name => exact .intern .refl known.char
  | binary op left right =>
    exact types_growsTo_binaryType known op (known.exprType left)
  | unary op operand =>
    cases op with
    | deref | not | neg | plus | bitNot => exact .refl
    | addrOf => exact .intern .refl (known.exprType operand)

end Builder

namespace Program

/-- A step of building a program that mentions known types only makes its table grow. -/
theorem types_growsTo_run {program : Program} (known : program.TypesKnown)
    {construction : Construction} (fits : construction.TypesFit program.types) :
    program.types.GrowsTo (construction.run.run program).2.types := by
  cases construction with
  | type layer => exact .intern .refl fits
  | function | param | body | var | global | stmt => exact .refl
  | prototype name params ret =>
    have same (func : FuncId) (start : Nat) (types : List TypeId) (program : Program) :
        ((Builder.anonymousParams func start types).run program).2.types = program.types := by
      induction types generalizing start program with
      | nil => rfl
      | cons type types ih => exact ih (start + 1) _
    show program.types.GrowsTo ((Builder.anonymousParams _ 0 params).run _).2.types
    rw [same]
    exact .refl
  | expr form => exact Builder.types_growsTo_staticType known fits
  | string text =>
    have named : ((Builder.name text).run program).2.TypesKnown := { known with }
    have fits : ExprForm.TypesFit ((Builder.name text).run program).2.types
        (.strLit ((Builder.name text).run program).1) := trivial
    exact Builder.types_growsTo_staticType named fits

/-- The types of a grounded program are made of types with smaller numbers. -/
theorem Grounded.descends {program : Program} (grounded : program.Grounded) :
    program.types.Descends := by
  induction grounded with
  | empty => exact TypeTable.descends_empty
  | step construction earlier _ fits ih =>
    exact (types_growsTo_run earlier.typesKnown fits).descends ih

end Program

end CellC
