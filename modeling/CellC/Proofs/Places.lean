import CellC.Proofs.Returns

/-!
# Places

Subscripts and dereferenced expressions stand for objects in memory. Evaluating one of them reads
the object, and an assignment writes it. Both find its place first, and both in the same way.

## Main definitions

* `Config.place?`: the address of the object that an expression stands for
* `Config.FindsPlace`: the address is found
* `Config.readPlace`, `Config.writePlace`: reading and writing the object at a place

## Main results

* `Config.expression_eq_readPlace`: the rule for expressions reads such an object
* `Config.assign_eq_writePlace`: the rule for assignments writes it
-/

namespace CellC

namespace Config

variable (config : Config) (eval : ExprId → Action Value)

/-- The address of the object that an expression of some form stands for, unless it is no object in
memory. -/
def place? : ExprForm → Option (Action Address)
  | .index base index => some (config.subscript eval base index)
  | .unary .deref operand => some (do return (← eval operand).address)
  | _ => none

/-- From `s` the address of the object that an expression stands for is found. -/
def FindsPlace (e : ExprId) (s : State) (address : Address) (s' : State) : Prop :=
  ∃ expr levels place, config.program.expr? e = some expr ∧
    config.place? (CellC.eval config levels) expr.form = some place ∧
      place.Returns s (.ok address) s'

/-- Reads the object of type `type` at a place. -/
def readPlace (place : Action Address) (type : TypeId) : Action Value := do
  config.loadAt (← place) type

/-- Writes the value of an expression to the object of type `type` at a place, after which the value
is recorded for the expression `target`. The value comes before the place. -/
def writePlace (value : ExprId) (place : Action Address) (type : TypeId) (target : ExprId) :
    Action Value := do
  let stored := config.types.view type (← eval value).cell
  config.storeAt (← place) type stored
  Action.record target stored
  pure stored

variable {config eval} {form : ExprForm} {place : Action Address}

theorem expression_eq_readPlace {invoke : FuncId → List Value → TypeId → Action Value} {id : ExprId}
    {type : TypeId} (placed : config.place? eval form = some place) :
    config.expression eval invoke id ⟨form, type⟩ = config.readPlace place type := by
  unfold place? at placed
  split at placed
  · cases placed
    rfl
  · cases placed
    simp only [expression, unary, readPlace, bind_assoc, pure_bind]
  · cases placed

theorem assign_eq_writePlace {target value : ExprId} {type : TypeId}
    (found : config.program.expr? (config.program.unparen target) = some ⟨form, type⟩)
    (placed : config.place? eval form = some place) :
    config.assign eval target value =
      config.writePlace eval value place type (config.program.unparen target) := by
  unfold assign writePlace
  refine bind_congr fun v => ?_
  dsimp only
  rw [found]
  unfold place? at placed
  split at placed
  · cases placed
    rfl
  · cases placed
    simp only [Action.ofOption, bind_assoc, pure_bind]
  · cases placed

variable {type : TypeId} {address : Address} {s s' s'' : State}

/-! ### Accesses that are granted -/

/-- Reading yields what the type makes of the cell that is loaded. -/
theorem returns_readPlace_ok {cell : Cell} (found : place.Returns s (.ok address) s')
    (object : config.types.isArray type = false)
    (loaded : s'.heap.load address (config.types.width type) = .ok cell) :
    (config.readPlace place type).Returns s (.ok (config.types.view type cell)) s' := by
  unfold Action.Returns at found ⊢
  unfold readPlace loadAt
  rw [EStateM.run_bind, found]
  dsimp only
  rw [object, if_neg Bool.false_ne_true, EStateM.run_bind, Action.run_load, loaded]
  rfl

/-- Writing yields what the type makes of the value, which is stored and recorded. -/
theorem returns_writePlace_ok {value : ExprId} {v : Value} {heap : Heap} (target : ExprId)
    (assigned : (eval value).Returns s (.ok v) s') (found : place.Returns s' (.ok address) s'')
    (stored : s''.heap.store address (config.types.width type)
      (config.types.view type v.cell).cell = .ok heap) :
    (config.writePlace eval value place type target).Returns s
      (.ok (config.types.view type v.cell))
      { s'' with
        heap
        stack := s''.stack.modifyTop (·.record target (config.types.view type v.cell)) } := by
  unfold Action.Returns at assigned found ⊢
  unfold writePlace storeAt
  rw [EStateM.run_bind, assigned]
  dsimp only
  rw [EStateM.run_bind, found]
  dsimp only
  rw [EStateM.run_bind, Action.run_store, stored]
  rfl

/-! ### Accesses that fail -/

/-- Reading fails if the place is found and the access is refused there. -/
theorem returns_readPlace_error (found : place.Returns s (.ok address) s')
    (object : config.types.isArray type = false)
    (refused : s'.heap.load address (config.types.width type) = .error (.badAddress address)) :
    (config.readPlace place type).Returns s (.error (.badAddress address)) s' := by
  unfold Action.Returns at found ⊢
  unfold readPlace loadAt
  rw [EStateM.run_bind, found]
  dsimp only
  rw [object, if_neg Bool.false_ne_true, EStateM.run_bind, Action.run_load, refused]

/-- Writing fails if the value and the place are found and the access is refused there. -/
theorem returns_writePlace_error {value target : ExprId} {v : Value}
    (assigned : (eval value).Returns s (.ok v) s') (found : place.Returns s' (.ok address) s'')
    (refused : ∀ cell, s''.heap.store address (config.types.width type) cell =
      .error (.badAddress address)) :
    (config.writePlace eval value place type target).Returns s (.error (.badAddress address))
      s'' := by
  unfold Action.Returns at assigned found ⊢
  unfold writePlace storeAt
  rw [EStateM.run_bind, assigned]
  dsimp only
  rw [EStateM.run_bind, found]
  dsimp only
  rw [EStateM.run_bind, Action.run_store, refused]

end Config

end CellC
