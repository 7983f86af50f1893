import CellC.Proofs.Places
import CellC.Proofs.Recording
import CellC.Proofs.Typing.Sums

/-!
# Subscripts and pointer arithmetic

A subscript `b[i]` stands for the same object as `*(b + i)`. The address of the first is computed
with addresses, that of the second with cells, and the sum has a static type of its own, but neither
makes a difference: whether read or written, both expressions end alike.

## Main results

* `Program.LeadsTo.type_of_index`, `Program.LeadsTo.type_of_deref`: the static types of the two
  expressions
* `Config.eval_sum`: the sum is the address of the subscript
* `subscripts_agree`: the two expressions have one type and end alike
-/

namespace CellC

open CellC.Action (finish)

/-! ### Static types -/

namespace Program

variable {early program : Program} (later : early.LeadsTo program) {base index : ExprId}
  {elem : TypeId} (there : base.index < early.exprs.size)
  (pointer : early.types.element? (early.exprType base) = some elem)
include later there pointer

/-- A subscript has the type of the elements. -/
theorem LeadsTo.type_of_index {x : ExprId} {type : TypeId}
    (found : program.expr? x = some ⟨.index base index, type⟩) (new : early.exprs.size ≤ x.index) :
    type = elem := by
  obtain ⟨before, origin⟩ := later.origin found new (by simp)
  calc
    type = (before.types.element? (before.exprType base)).getD .int := origin.type
    _ = elem := by rw [origin.later.element?_of_there there pointer, Option.getD_some]

/-- What a sum of the base and the index points to has the type of the elements. -/
theorem LeadsTo.type_of_deref {y z : ExprId} {type type' : TypeId}
    (sum : program.expr? z = some ⟨.binary .add base index, type'⟩)
    (found : program.expr? y = some ⟨.unary .deref z, type⟩)
    (newer : early.exprs.size ≤ z.index) (new : early.exprs.size ≤ y.index) : type = elem := by
  obtain ⟨before, origin⟩ := later.origin found new (by simp)
  have fits : z.index < before.exprs.size := origin.fits
  have sum' : before.expr? z = some ⟨.binary .add base index, type'⟩ := by
    have there' : before.expr? z = some before.exprs[z.index] := Array.getElem?_eq_getElem fits
    rw [there', ← sum, origin.growsInto.exprs z _ there']
  have known : before.types.element? (before.exprType z) = some elem := by
    rw [exprType_of_expr? sum']
    exact TypeTable.element?_of_pointer (origin.later.layer_of_left there pointer rfl sum' newer)
  calc
    type = (before.types.element? (before.exprType z)).getD .int := origin.type
    _ = elem := by rw [known, Option.getD_some]

end Program

/-! ### Evaluation -/

namespace Config

variable {config : Config} {base index x y z : ExprId} {elem zt : TypeId}

/-- An offset is a wrapped sum of the bits. -/
theorem offset_ofCell (a b : Cell) : (Address.ofCell a).offset b = .ofCell (a + b) := by
  rw [← Address.ofCell_toCell ((Address.ofCell a).offset b), Address.toCell_offset,
    Address.toCell_ofCell]

/-- The sum of a pointer or an array and a number is the address of the subscript. -/
theorem eval_sum (pointer : config.types.element? (config.program.exprType base) = some elem)
    (number : config.types.element? (config.program.exprType index) = none)
    (sum : config.program.expr? z = some ⟨.binary .add base index, zt⟩)
    (layer : config.types.layer zt = .pointer elem) (levels : Nat) :
    CellC.eval config (levels + 1) z = (do
      let address ← config.subscript (CellC.eval config levels) base index
      Action.record z (.pointer address)
      pure (.pointer address)) := by
  have scaled (a b : Cell) :
      config.scaled .add (config.program.exprType base) (config.program.exprType index) a b =
        (a, b * config.elementStride (config.program.exprType base)) := by
    unfold Config.scaled elementStride
    rw [pointer, number]
    rfl
  have viewed (cell : Cell) : config.types.view zt cell = .pointer (.ofCell cell) := by
    unfold TypeTable.view
    rw [layer]
    rfl
  rw [eval_succ, evaluation, sum]
  simp only [Action.ofOption, pure_bind, expression, binary, BinaryOp.supported, BinaryOp.assigns,
    scaled, viewed, BinaryOp.apply, Action.ofExcept, subscript, bind_assoc, Value.address,
    offset_ofCell, Bool.not_true, Bool.false_eq_true, if_false]

/-! ### Accesses -/

/-- A load depends on the heap alone, whatever type it is made at. -/
theorem actsOnHeap_loadAt (config : Config) (address : Address) (type : TypeId) :
    Action.ActsOnHeap (config.loadAt address type) := by
  intro s
  unfold loadAt
  split
  · exact ⟨.ok (.array address), s.heap, fun stack => rfl⟩
  · cases loaded : s.heap.load address (config.types.width type) with
    | ok cell =>
      refine ⟨.ok (config.types.view type cell), s.heap, fun stack => ?_⟩
      unfold Action.Returns
      rw [EStateM.run_bind, Action.run_load, loaded]
      rfl
    | error fault =>
      refine ⟨.error fault, s.heap, fun stack => ?_⟩
      unfold Action.Returns
      rw [EStateM.run_bind, Action.run_load, loaded]

/-- Stores a value as an object of type `type` and yields it. -/
def storedAt (config : Config) (address : Address) (type : TypeId) (value : Value) :
    Action Value := do
  config.storeAt address type value
  pure value

/-- A store depends on the heap alone, and yields what it has stored. -/
theorem actsOnHeap_storedAt (config : Config) (address : Address) (type : TypeId) (value : Value) :
    Action.ActsOnHeap (config.storedAt address type value) := by
  intro s
  cases stored : s.heap.store address (config.types.width type) value.cell with
  | ok heap =>
    refine ⟨.ok value, heap, fun stack => ?_⟩
    unfold Action.Returns storedAt storeAt
    rw [EStateM.run_bind, Action.run_store, stored]
    rfl
  | error fault =>
    refine ⟨.error fault, s.heap, fun stack => ?_⟩
    unfold Action.Returns storedAt storeAt
    rw [EStateM.run_bind, Action.run_store, stored]

/-! ### The two ways -/

section Ways

variable {u w value a b : ExprId} {type : TypeId} (levels : Nat)

/-- A subscript finds its address, loads from it and records what it has loaded. -/
theorem eval_index (subscript : config.program.expr? x = some ⟨.index base index, elem⟩) :
    CellC.eval config (levels + 1) x = (do
      let address ← config.subscript (CellC.eval config levels) base index
      finish id (config.loadAt address elem) fun v => (·.record x v)) := by
  rw [eval_succ, evaluation, subscript]
  simp only [Action.ofOption, pure_bind, expression, bind_assoc, Action.finish_id]
  rfl

/-- An assignment to a subscript evaluates the value before it finds the address. -/
theorem eval_assign_index (target : config.program.unparen u = x)
    (subscript : config.program.expr? x = some ⟨.index base index, elem⟩)
    (assigned : config.program.expr? a = some ⟨.binary .assign u value, type⟩) :
    CellC.eval config (levels + 1) a = (do
      let stored := config.types.view elem (← CellC.eval config levels value).cell
      let address ← config.subscript (CellC.eval config levels) base index
      finish id (config.storedAt address elem stored)
        fun v frame => (frame.record x v).record a v) := by
  have written : config.assign (CellC.eval config levels) u value =
      config.writePlace (CellC.eval config levels) value
        (config.subscript (CellC.eval config levels) base index) elem x := by
    rw [assign_eq_writePlace (by rw [target]; exact subscript) rfl, target]
  rw [eval_succ, evaluation, assigned]
  show (config.assign (CellC.eval config levels) u value >>= fun v =>
    Action.record a v >>= fun _ => pure v) = _
  rw [written]
  simp only [writePlace, Config.storedAt, Action.record, Action.finish_id, bind_assoc, pure_bind,
    Action.modifyTop_bind_modifyTop]
  rfl

/-- The address to which a sum evaluates. -/
abbrev sumPlace (config : Config) (levels : Nat) (z : ExprId) : Action Address := do
  return (← CellC.eval config levels z).address

variable (pointer : config.types.element? (config.program.exprType base) = some elem)
  (number : config.types.element? (config.program.exprType index) = none)
  (sum : config.program.expr? z = some ⟨.binary .add base index, zt⟩)
  (layer : config.types.layer zt = .pointer elem)
include pointer number sum layer

/-- The sum evaluates to the address of the subscript, and records it on the way. -/
theorem sumPlace_eq : config.sumPlace (levels + 1) z = (do
    let address ← config.subscript (CellC.eval config levels) base index
    Action.record z (.pointer address)
    pure address) := by
  unfold sumPlace
  rw [eval_sum pointer number sum layer]
  simp only [bind_assoc, pure_bind, Value.address, Value.cell, Address.ofCell_toCell]

/-- A dereferenced sum loads from the address of the subscript, and also records the sum. -/
theorem eval_deref (deref : config.program.expr? y = some ⟨.unary .deref z, elem⟩) :
    CellC.eval config (levels + 2) y = (do
      let address ← config.subscript (CellC.eval config levels) base index
      finish (·.record z (.pointer address)) (config.loadAt address elem)
        fun v => (·.record y v)) := by
  have read : config.expression (CellC.eval config (levels + 1))
      (config.functionCall (CellC.exec config (levels + 1))) y ⟨.unary .deref z, elem⟩ =
      config.readPlace (config.sumPlace (levels + 1) z) elem := expression_eq_readPlace rfl
  rw [eval_succ, evaluation, deref]
  show (config.expression _ _ y ⟨.unary .deref z, elem⟩ >>= fun v =>
    Action.record y v >>= fun _ => pure v) = _
  rw [read, sumPlace_eq levels pointer number sum layer]
  simp only [readPlace, finish, Action.record, bind_assoc, pure_bind]

/-- An assignment to a dereferenced sum stores at the address of the subscript, and also records the
sum. -/
theorem eval_assign_deref (target : config.program.unparen w = y)
    (deref : config.program.expr? y = some ⟨.unary .deref z, elem⟩)
    (assigned : config.program.expr? b = some ⟨.binary .assign w value, type⟩) :
    CellC.eval config (levels + 2) b = (do
      let stored := config.types.view elem (← CellC.eval config (levels + 1) value).cell
      let address ← config.subscript (CellC.eval config levels) base index
      finish (·.record z (.pointer address)) (config.storedAt address elem stored)
        fun v frame => (frame.record y v).record b v) := by
  have written : config.assign (CellC.eval config (levels + 1)) w value =
      config.writePlace (CellC.eval config (levels + 1)) value
        (config.sumPlace (levels + 1) z) elem y := by
    rw [assign_eq_writePlace (by rw [target]; exact deref) rfl, target]
  rw [eval_succ, evaluation, assigned]
  show (config.assign (CellC.eval config (levels + 1)) w value >>= fun v =>
    Action.record b v >>= fun _ => pure v) = _
  rw [written, sumPlace_eq levels pointer number sum layer]
  simp only [writePlace, Config.storedAt, finish, Action.record, bind_assoc, pure_bind,
    Action.modifyTop_bind_modifyTop]
  rfl

end Ways

/-! ### Agreement -/

section Agreement

variable (pointer : config.types.element? (config.program.exprType base) = some elem)
  (number : config.types.element? (config.program.exprType index) = none)
  (subscript : config.program.expr? x = some ⟨.index base index, elem⟩)
  (sum : config.program.expr? z = some ⟨.binary .add base index, zt⟩)
  (layer : config.types.layer zt = .pointer elem)
  (deref : config.program.expr? y = some ⟨.unary .deref z, elem⟩)
include pointer number subscript sum layer deref

/-- Reading through the subscript and through the sum is the same up to the records of both. -/
theorem endAlike_read : config.EndAlike [x, z, y] x y := by
  have both (frame : Frame) (address : Address) (v : Value) : Frame.SameExcept [x, z, y]
      (frame.record x v) ((frame.record z (.pointer address)).record y v) :=
    (((Frame.SameExcept.refl _ frame).record (by simp) v).symm.trans
      (((Frame.SameExcept.refl _ frame).record (by simp) (.pointer address)).record (by simp) v))
  have start (frame : Frame) (address : Address) :
      Frame.SameExcept [x, z, y] frame (frame.record z (.pointer address)) :=
    (Frame.SameExcept.refl _ frame).record (by simp) _
  refine .of_mirroredBy (fun levels => ?_) (fun levels => ?_)
  · rw [eval_index levels subscript, eval_deref levels pointer number sum layer deref]
    refine (Action.Approximates.refl _).bind_mirroredBy fun address => ?_
    exact Action.mirroredBy_finish (actsOnHeap_loadAt config address elem)
      (fun frame => start frame address) fun v frame => both frame address v
  · rw [eval_index (levels + 1) subscript, eval_deref levels pointer number sum layer deref]
    refine (approximates_subscript (fun id => eval_mono (Nat.le_succ levels) id) base
      index).bind_mirroredBy fun address => ?_
    exact Action.mirroredBy_finish (actsOnHeap_loadAt config address elem)
      (fun frame => (start frame address).symm) fun v frame => (both frame address v).symm

/-- Assigning through the subscript and through the sum is the same up to the records of both. -/
theorem endAlike_write {u w value a b : ExprId} {type type' : TypeId}
    (target : config.program.unparen u = x) (target' : config.program.unparen w = y)
    (assigned : config.program.expr? a = some ⟨.binary .assign u value, type⟩)
    (assigned' : config.program.expr? b = some ⟨.binary .assign w value, type'⟩) :
    config.EndAlike [x, z, y, a, b] a b := by
  have both (frame : Frame) (address : Address) (v : Value) : Frame.SameExcept [x, z, y, a, b]
      ((frame.record x v).record a v)
      (((frame.record z (.pointer address)).record y v).record b v) :=
    ((((Frame.SameExcept.refl _ frame).record (by simp) v).record (by simp) v).symm.trans
      ((((Frame.SameExcept.refl _ frame).record (by simp) (.pointer address)).record (by simp)
        v).record (by simp) v))
  have start (frame : Frame) (address : Address) :
      Frame.SameExcept [x, z, y, a, b] frame (frame.record z (.pointer address)) :=
    (Frame.SameExcept.refl _ frame).record (by simp) _
  refine .of_mirroredBy (fun levels => ?_) (fun levels => ?_)
  · rw [eval_assign_index levels target subscript assigned,
      eval_assign_deref levels pointer number sum layer target' deref assigned']
    refine (eval_mono (Nat.le_succ levels) value).bind_mirroredBy fun v => ?_
    refine (Action.Approximates.refl _).bind_mirroredBy fun address => ?_
    exact Action.mirroredBy_finish (actsOnHeap_storedAt config address elem _)
      (fun frame => start frame address) fun v frame => both frame address v
  · rw [eval_assign_index (levels + 1) target subscript assigned,
      eval_assign_deref levels pointer number sum layer target' deref assigned']
    refine (Action.Approximates.refl _).bind_mirroredBy fun v => ?_
    refine (approximates_subscript (fun id => eval_mono (Nat.le_succ levels) id) base
      index).bind_mirroredBy fun address => ?_
    exact Action.mirroredBy_finish (actsOnHeap_storedAt config address elem _)
      (fun frame => (start frame address).symm) fun v frame => (both frame address v).symm

end Agreement

end Config

/-- To a program in which `base` was there and was a pointer or an array, the nodes `x`, which is
`base[index]`, `z`, which is `base + index`, and `y`, which is `*z`, were added in any order and
with anything else. The index is neither pointer nor array. -/
structure Program.SubscriptNodes (early program : Program) (base index x z y : ExprId) : Prop where
  later : early.LeadsTo program
  there : base.index < early.exprs.size
  pointer : ∃ elem, early.types.element? (early.exprType base) = some elem
  number : program.types.element? (program.exprType index) = none
  subscript : ∃ type, program.expr? x = some ⟨.index base index, type⟩
  sum : ∃ type, program.expr? z = some ⟨.binary .add base index, type⟩
  deref : ∃ type, program.expr? y = some ⟨.unary .deref z, type⟩
  new : early.exprs.size ≤ x.index ∧ early.exprs.size ≤ z.index ∧ early.exprs.size ≤ y.index

/-- **Subscripts are pointer arithmetic.** In a built program the expressions `base[index]` and
`*(base + index)` have the same static type. From every state they evaluate to the same value or the
same fault, and leave the same state behind, up to what is recorded for them and for the sum. The
same is true of assignments of one value to either of them, with or without parentheses. -/
theorem subscripts_agree {config : Config} {early : Program} {base index x z y : ExprId}
    (nodes : early.SubscriptNodes config.program base index x z y) :
    config.program.exprType x = config.program.exprType y ∧
    config.EndAlike [x, z, y] x y ∧
    ∀ u w value a b, config.program.unparen u = x → config.program.unparen w = y →
      (∃ type, config.program.expr? a = some ⟨.binary .assign u value, type⟩) →
      (∃ type, config.program.expr? b = some ⟨.binary .assign w value, type⟩) →
      config.EndAlike [x, z, y, a, b] a b := by
  obtain ⟨later, there, ⟨elem, pointer⟩, number, ⟨xt, subscript⟩, ⟨zt, sum⟩, ⟨yt, deref⟩, newx,
    newz, newy⟩ := nodes
  obtain rfl : xt = elem := later.type_of_index there pointer subscript newx
  obtain rfl : yt = xt := later.type_of_deref there pointer sum deref newz newy
  have layer : config.types.layer zt = .pointer yt := later.layer_of_left there pointer rfl sum newz
  have pointer' : config.types.element? (config.program.exprType base) = some yt :=
    later.element?_of_there there pointer
  refine ⟨?_, ?_, ?_⟩
  · rw [Program.exprType_of_expr? subscript, Program.exprType_of_expr? deref]
  · exact Config.endAlike_read pointer' number subscript sum layer deref
  · rintro u w value a b target target' ⟨type, assigned⟩ ⟨type', assigned'⟩
    exact Config.endAlike_write pointer' number subscript sum layer deref target target' assigned
      assigned'

/-- The file-scope variable `p`, a pointer to characters, and the expression that names it. -/
def pointerToChar : Program where
  names := ⟨⟨#["", "p"]⟩⟩
  types := ⟨⟨#[.int, .char, .void, .pointer .char]⟩⟩
  vars := #[⟨⟨1⟩, ⟨3⟩, none⟩]
  exprs := #[⟨.ident ⟨0⟩, ⟨3⟩⟩]

/-- The steps that add the expressions `p[-3]` and `*(p + -3)`, and assignments of `65` to them. -/
def subscriptSteps : List Construction :=
  [.expr (.intLit (-3)), .expr (.index ⟨0⟩ ⟨1⟩), .expr (.binary .add ⟨0⟩ ⟨1⟩),
    .expr (.unary .deref ⟨3⟩), .expr (.charLit 65), .expr (.binary .assign ⟨2⟩ ⟨5⟩),
    .expr (.binary .assign ⟨4⟩ ⟨5⟩)]

/-- The program with these expressions. -/
def subscriptOfChar : Config where
  program := { pointerToChar with
    exprs := #[⟨.ident ⟨0⟩, ⟨3⟩⟩, ⟨.intLit (-3), .int⟩, ⟨.index ⟨0⟩ ⟨1⟩, .char⟩,
      ⟨.binary .add ⟨0⟩ ⟨1⟩, ⟨3⟩⟩, ⟨.unary .deref ⟨3⟩, .char⟩, ⟨.charLit 65, .char⟩,
      ⟨.binary .assign ⟨2⟩ ⟨5⟩, .char⟩, ⟨.binary .assign ⟨4⟩ ⟨5⟩, .char⟩] }
  setup := { globals := [⟨0⟩], entry := ⟨0⟩ }

/-- With null in `p` both expressions fail at the address three bytes below, which wraps around.
With an address within a block in `p` both assignments succeed. -/
theorem subscripts_agree_subscriptOfChar :
    ((subscriptSteps.mapM Construction.run).run pointerToChar).2 = subscriptOfChar.program ∧
    (∃ t, subscriptOfChar.Evaluates ⟨4⟩ { stack := { root := Frame.bind {} ⟨0⟩ (.pointer .null) } }
      (.error (.badAddress ⟨0xfffffffffffffffd⟩)) t) ∧
    ∃ t, subscriptOfChar.Evaluates ⟨7⟩
      { stack := { root := Frame.bind {} ⟨0⟩ (.pointer ⟨0x10000003⟩) }
        heap := { blocks := [⟨⟨0x10000000⟩, .array, #[0, 0, 0, 0]⟩] } } (.ok (.char 65)) t := by
  have fit : pointerToChar.StepsFit subscriptSteps := by decide
  have nodes : pointerToChar.SubscriptNodes subscriptOfChar.program ⟨0⟩ ⟨1⟩ ⟨2⟩ ⟨3⟩ ⟨4⟩ :=
    { later := Program.leadsTo_mapM fit
      there := by decide
      pointer := ⟨.char, by decide⟩
      number := by decide
      subscript := ⟨.char, by decide⟩
      sum := ⟨⟨3⟩, by decide⟩
      deref := ⟨.char, by decide⟩
      new := by decide }
  obtain ⟨-, read, written⟩ := subscripts_agree nodes
  refine ⟨rfl, ?_, ?_⟩
  · obtain ⟨t, ends, -⟩ := read.forth { stack := { root := Frame.bind {} ⟨0⟩ (.pointer .null) } }
      (.error (.badAddress ⟨0xfffffffffffffffd⟩)) _ ⟨2, rfl⟩
    exact ⟨t, ends⟩
  · have same := written ⟨2⟩ ⟨4⟩ ⟨5⟩ ⟨6⟩ ⟨7⟩ (by decide) (by decide) ⟨.char, by decide⟩
      ⟨.char, by decide⟩
    obtain ⟨t, ends, -⟩ := same.forth
      { stack := { root := Frame.bind {} ⟨0⟩ (.pointer ⟨0x10000003⟩) }
        heap := { blocks := [⟨⟨0x10000000⟩, .array, #[0, 0, 0, 0]⟩] } } (.ok (.char 65)) _ ⟨2, rfl⟩
    exact ⟨t, ends⟩

end CellC
