import CellC.Proofs.Typing.Static
import CellC.Proofs.Steps

/-!
# Typed states

In a typed state every binding is a value of its variable's type, and what is recorded for an
expression is a value of the expression's type, unless that is a conversion. The single steps of the
machine keep states typed, provided that what they bind and record is of the right type.

## Main definitions

* `TypeTable.Canonical`: the values of a type
* `State.Typed`: bindings and records have the types that they should have
* `Action.TypedAlike`: two actions end alike from typed states, which they keep typed
-/

namespace CellC

variable {α β : Type}

/-- Reading the value's cell at the type gives the value back. -/
def TypeTable.Canonical (table : TypeTable) (type : TypeId) (value : Value) : Prop :=
  table.view type value.cell = value

instance (table : TypeTable) (type : TypeId) (value : Value) :
    Decidable (table.Canonical type value) :=
  inferInstanceAs (Decidable (_ = _))

/-- A value is of a type once it is seen as that type. -/
theorem TypeTable.canonical_view (table : TypeTable) (type : TypeId) (cell : Cell) :
    table.Canonical type (table.view type cell) :=
  Value.ofCell_cell_ofCell _ _

/-- The value is one that the expression may have: any value for a conversion, which passes its
operand on, and a value of its type for any other expression. -/
def Program.MayHave (program : Program) (id : ExprId) (value : Value) : Prop :=
  ¬ program.IsCast id → program.types.Canonical (program.exprType id) value

/-! ### Frames and states -/

/-- The values of the frame have the types that they should have. -/
structure Frame.Typed (program : Program) (frame : Frame) : Prop where
  bindings : ∀ var value, frame.value? var = some value →
    program.types.Canonical (program.varType var) value
  records : ∀ id value, frame.recorded id = some value → program.MayHave id value

namespace Frame.Typed

variable {program : Program} {frame : Frame}

theorem empty : Frame.Typed program {} where
  bindings var value bound := by simp [Frame.value?] at bound
  records id value recorded := by simp [Frame.recorded] at recorded

/-- A binding of a value of its type keeps the frame typed. -/
theorem bind (typed : frame.Typed program) {var : VarId} {value : Value}
    (canonical : program.types.Canonical (program.varType var) value) :
    (frame.bind var value).Typed program where
  bindings other value' bound := by
    rw [Frame.value?_bind] at bound
    split at bound
    · next same =>
      obtain rfl := Option.some.inj bound
      exact same ▸ canonical
    · exact typed.bindings other value' bound
  records := typed.records

/-- A record of a value that the expression may have keeps the frame typed. -/
theorem record (typed : frame.Typed program) {id : ExprId} {value : Value}
    (may : program.MayHave id value) : (frame.record id value).Typed program where
  bindings := typed.bindings
  records other value' recorded := by
    rw [Frame.recorded_record] at recorded
    split at recorded
    · next same =>
      obtain rfl := Option.some.inj recorded
      exact same ▸ may
    · exact typed.records other value' recorded

end Frame.Typed

/-- All frames are typed. -/
def CallStack.Typed (program : Program) (stack : CallStack) : Prop :=
  ∀ frame ∈ stack.root :: stack.calls, frame.Typed program

namespace CallStack.Typed

variable {program : Program} {stack : CallStack} (typed : stack.Typed program)
include typed

theorem root : stack.root.Typed program :=
  typed _ List.mem_cons_self

theorem top : stack.top.Typed program := by
  obtain ⟨root, _ | ⟨frame, calls⟩⟩ := stack
  · exact typed root List.mem_cons_self
  · exact typed frame (List.mem_cons_of_mem _ List.mem_cons_self)

/-- The stack stays typed under an update of the innermost frame that keeps frames typed. -/
theorem modifyTop {f : Frame → Frame}
    (kept : ∀ frame, frame.Typed program → (f frame).Typed program) :
    (stack.modifyTop f).Typed program := by
  obtain ⟨root, _ | ⟨frame, calls⟩⟩ := stack
  · intro frame member
    obtain rfl : frame = f root := by simpa [CallStack.modifyTop] using member
    exact kept root (typed root List.mem_cons_self)
  · intro other member
    rcases List.mem_cons.mp member with rfl | member
    · exact typed other List.mem_cons_self
    · rcases List.mem_cons.mp member with rfl | member
      · exact kept frame (typed frame (List.mem_cons_of_mem _ List.mem_cons_self))
      · exact typed other (List.mem_cons_of_mem _ (List.mem_cons_of_mem _ member))

theorem modifyRoot {f : Frame → Frame}
    (kept : ∀ frame, frame.Typed program → (f frame).Typed program) :
    (stack.modifyRoot f).Typed program := by
  intro frame member
  rcases List.mem_cons.mp member with rfl | member
  · exact kept stack.root typed.root
  · exact typed frame (List.mem_cons_of_mem _ member)

/-- A new frame holds no values yet, so the stack stays typed. -/
theorem push : stack.push.Typed program := by
  intro frame member
  rcases List.mem_cons.mp member with rfl | member
  · exact typed.root
  · rcases List.mem_cons.mp member with rfl | member
    · exact .empty
    · exact typed frame (List.mem_cons_of_mem _ member)

theorem pop {frame : Frame} {calls : List Frame} (found : stack.calls = frame :: calls) :
    CallStack.Typed program { stack with calls } := by
  intro other member
  rcases List.mem_cons.mp member with rfl | member
  · exact typed.root
  · apply typed other
    rw [found]
    exact List.mem_cons_of_mem _ (List.mem_cons_of_mem _ member)

end CallStack.Typed

/-- The values in all frames have the types that they should have. -/
def State.Typed (program : Program) (s : State) : Prop := s.stack.Typed program

/-! ### Actions -/

namespace Action

/-- From equal typed states the actions end alike, in equal typed states and with the same value,
which has `V`. -/
abbrev TypedAlike (program : Program) (V : α → Prop) (action other : Action α) : Prop :=
  Related (fun s t => s = t ∧ s.Typed program) (fun _ s t => s = t ∧ s.Typed program)
    (fun v w => v = w ∧ V v) action other

namespace TypedAlike

variable {program : Program} {V : α → Prop} {W : β → Prop}

protected theorem pure {a : α} (fits : V a) :
    TypedAlike program V (Pure.pure a) (Pure.pure a) :=
  Related.pure ⟨rfl, fits⟩

/-- A sequence is typed when its first part is and so is what follows for each value it may yield.
-/
protected theorem bind {action other : Action α} {next next' : α → Action β}
    (first : TypedAlike program V action other)
    (rest : ∀ a, V a → TypedAlike program W (next a) (next' a)) :
    TypedAlike program W (action >>= next) (other >>= next') := by
  refine Related.bind first ?_
  rintro a _ ⟨rfl, fits⟩
  exact rest a fits

/-- Less may be said about the value. -/
theorem weaken {V' : α → Prop} {action other : Action α}
    (h : TypedAlike program V action other) (fits : ∀ a, V a → V' a) :
    TypedAlike program V' action other :=
  Related.weaken h fun _ _ same => ⟨same.1, fits _ same.2⟩

/-- Nothing is said about the value. -/
theorem of_eq {action other : Action α}
    (related : Related (fun s t => s = t ∧ s.Typed program) (fun _ s t => s = t ∧ s.Typed program)
      (· = ·) action other) : TypedAlike program (fun _ => True) action other :=
  Related.weaken related fun _ _ same => ⟨same, trivial⟩

protected theorem discard {action other : Action α} (h : TypedAlike program V action other) :
    TypedAlike program (fun _ => True) (discard action : Action Unit) (discard other) :=
  of_eq (Related.discard h)

/-- An action whose every return from a typed state is known. -/
theorem of_settles {action : Action α}
    (settles : ∀ s, s.Typed program →
      Settles (State.Typed program) (fun _ => State.Typed program) (action.run s)) :
    TypedAlike program (fun _ => True) action action :=
  of_eq (Action.related_self settles)

theorem fail (fault : Fault) : TypedAlike program V (Action.fail fault) (Action.fail fault) :=
  Related.fail fun _ _ start => start

/-- What is known of a return from a typed state. -/
theorem returns {action other : Action α} (h : TypedAlike program V action other) {s s' : State}
    {result : Except Fault α} (start : s.Typed program) (run : action.Returns s result s') :
    s'.Typed program ∧ ∀ a, result = .ok a → V a := by
  have matching := h (show s = s ∧ s.Typed program from ⟨rfl, start⟩)
  unfold Returns at run
  rw [run] at matching
  generalize other.run s = answer at matching
  cases result with
  | ok a =>
    cases matching with
    | ok fits states =>
      refine ⟨states.2, fun b same => ?_⟩
      cases same
      exact fits.2
  | error fault =>
    cases matching with
    | fault states => exact ⟨states.2, by simp⟩

theorem modifyTop {f : Frame → Frame}
    (kept : ∀ frame, frame.Typed program → (f frame).Typed program) :
    TypedAlike program (fun _ => True) (Action.modifyTop f) (Action.modifyTop f) := by
  rintro s _ ⟨rfl, start⟩
  exact .ok ⟨rfl, trivial⟩ ⟨rfl, CallStack.Typed.modifyTop start kept⟩

/-- Recording a value that the expression may have is typed. -/
theorem record {id : ExprId} {value : Value} (may : program.MayHave id value) :
    TypedAlike program (fun _ => True) (Action.record id value) (Action.record id value) :=
  modifyTop fun _ typed => typed.record may

/-- Binding a value of the type of the variable is typed. -/
theorem bindVar {var : VarId} {value : Value}
    (canonical : program.types.Canonical (program.varType var) value) :
    TypedAlike program (fun _ => True) (Action.bind var value) (Action.bind var value) :=
  modifyTop fun _ typed => typed.bind canonical

/-- A look-up yields what is there. -/
theorem ofOption (option : Option α) :
    TypedAlike program (fun a => option = some a) (Action.ofOption option)
      (Action.ofOption option) := by
  intro s t start
  cases option with
  | none => exact .dangling
  | some a => exact .ok ⟨rfl, rfl⟩ start

theorem ofExcept (outcome : Except Fault α) :
    TypedAlike program (fun _ => True) (Action.ofExcept outcome) (Action.ofExcept outcome) :=
  of_eq (Related.ofExcept fun _ _ _ _ start => start)

/-! The remaining actions leave the frames alone. -/

theorem emit (event : Event) :
    TypedAlike program (fun _ => True) (Action.emit event) (Action.emit event) :=
  of_settles fun _ start => .ok start

theorem println (line : String) :
    TypedAlike program (fun _ => True) (Action.println line) (Action.println line) :=
  of_settles fun _ start => .ok start

theorem allocate (size : Cell) (purpose : Purpose) :
    TypedAlike program (fun _ => True) (Action.allocate size purpose)
      (Action.allocate size purpose) := by
  refine of_settles fun s start => ?_
  rw [run_allocate]
  cases s.heap.allocate size purpose with
  | ok made => exact .ok start
  | error fault => exact .fault start

theorem release (address : Address) :
    TypedAlike program (fun _ => True) (Action.release address) (Action.release address) := by
  refine of_settles fun s start => ?_
  rw [run_release]
  exact .ok start

theorem load (address : Address) (width : Nat) :
    TypedAlike program (fun _ => True) (Action.load address width) (Action.load address width) := by
  refine of_settles fun s start => ?_
  rw [run_load]
  cases s.heap.load address width with
  | ok cell => exact .ok start
  | error fault => exact .fault start

theorem store (address : Address) (width : Nat) (cell : Cell) :
    TypedAlike program (fun _ => True) (Action.store address width cell)
      (Action.store address width cell) := by
  refine of_settles fun s start => ?_
  rw [run_store]
  cases s.heap.store address width cell with
  | ok heap => exact .ok start
  | error fault => exact .fault start

theorem readInteger :
    TypedAlike program (fun _ => True) Action.readInteger Action.readInteger := by
  refine of_settles fun s start => ?_
  unfold Action.readInteger
  rw [EStateM.run_bind, EStateM.run_modifyGet]
  dsimp only
  cases s.input.read.1 with
  | value n => exact .ok start
  | malformed word error => exact .ok start
  | unavailable => exact .ok start

/-- Discarding a frame is typed, also where there is none to discard. -/
theorem popFrame : TypedAlike program (fun _ => True) Action.popFrame Action.popFrame := by
  refine of_settles fun s start => ?_
  cases found : s.stack.calls with
  | nil =>
    rw [run_popFrame_nil found]
    exact .fault start
  | cons frame calls =>
    rw [run_popFrame_cons found]
    exact .ok (start.pop found)

end TypedAlike

end Action

end CellC
