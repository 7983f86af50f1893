import CellC.Proofs.Blindness
import CellC.Proofs.Steps

/-!
# Calls of primitives in the journal

The journal announces every call before it is carried out, with the values of its arguments. So it
tells which primitives were called on what. Whatever the machine does apart from these calls is
discreet: it announces none of them, and has nothing to do with input and output.

## Main definitions

* `Config.primitiveCalls`: the calls of primitives that a journal announces
* `Config.Discreet`: actions that neither use the channels nor announce such a call

## Main results

* `Config.primitiveCalls_push`: one more entry announces one more call at most
-/

namespace CellC

open CellC.Action (Settles)

variable {α β : Type}

/-! ### Announcements -/

/-- The primitive whose call an entry of the journal announces, with its arguments. Nothing is said
about their number. -/
def Config.called? (config : Config) : Event → Option (Primitive × List Value)
  | .dispatch id values =>
    match config.program.expr? id with
    | some ⟨.call callee _, _⟩ => (config.setup.primitive? callee).map (·, values)
    | _ => none
  | _ => none

/-- The calls of primitives that a journal announces, the first one first. -/
def Config.primitiveCalls (config : Config) (journal : Array Event) :
    List (Primitive × List Value) :=
  journal.toList.filterMap config.called?

namespace Config

variable (config : Config)

/-- An entry at the end of the journal announces its call after all others. -/
theorem primitiveCalls_push (journal : Array Event) (event : Event) :
    config.primitiveCalls (journal.push event) =
      config.primitiveCalls journal ++ (config.called? event).toList := by
  unfold primitiveCalls
  rw [Array.toList_push, List.filterMap_append]
  cases found : config.called? event <;> simp [found]

/-- The announcement of a call names the primitive of the callee, where it is one. -/
theorem called?_dispatch {id : ExprId} {callee : FuncId} {args : List ExprId} {type : TypeId}
    (found : config.program.expr? id = some ⟨.call callee args, type⟩) (values : List Value) :
    config.called? (.dispatch id values) = (config.setup.primitive? callee).map (·, values) := by
  unfold called?
  dsimp only
  rw [found]

/-- Remarks announce no call. -/
theorem called?_remark {event : Event} (plain : event.IsRemark = true) :
    config.called? event = none := by
  cases event <;> first | rfl | cases plain

/-- The end of a block announces no call. -/
theorem called?_releaseEvent (heap : Heap) (address : Address) :
    config.called? (Action.releaseEvent heap address) = none := by
  unfold Action.releaseEvent
  cases heap.blockAt? address <;> rfl

/-- The events at the end of an activation announce no call. -/
theorem primitiveCalls_afterPop (s : State) (frame : Frame) (calls : List Frame) :
    config.primitiveCalls (Action.afterPop s frame calls).journal =
      config.primitiveCalls s.journal := by
  have none (heap : Heap) (bases : List Address) :
      (Action.releaseEvents heap bases).filterMap config.called? = [] := by
    induction bases generalizing heap with
    | nil => rfl
    | cons base bases ih =>
      rw [Action.releaseEvents, List.filterMap_cons, config.called?_releaseEvent, ih]
  unfold Action.afterPop
  dsimp only
  rw [primitiveCalls_push]
  unfold primitiveCalls
  rw [Array.toList_append, List.filterMap_append, none]
  simp [called?]

/-! ### Discretion -/

/-- The action has nothing to do with the channels, and it announces no call of a primitive. -/
structure Discreet (action : Action α) : Prop where
  blind : action.Blind
  quiet : ∀ s, Settles (fun t => config.primitiveCalls t.journal = config.primitiveCalls s.journal)
    (fun _ t => config.primitiveCalls t.journal = config.primitiveCalls s.journal) (action.run s)

namespace Discreet

variable {config}

protected theorem pure (a : α) : config.Discreet (pure a) := ⟨.pure a, fun _ => .ok rfl⟩

theorem fail (fault : Fault) : config.Discreet (Action.fail fault : Action α) :=
  ⟨.fail fault, fun _ => .fault rfl⟩

/-- A sequence is discreet when both of its parts are. -/
protected theorem bind {action : Action α} {next : α → Action β} (first : config.Discreet action)
    (rest : ∀ a, config.Discreet (next a)) : config.Discreet (action >>= next) where
  blind := first.blind.bind fun a => (rest a).blind
  quiet s := by
    rw [EStateM.run_bind]
    have settled := first.quiet s
    generalize action.run s = outcome at settled
    cases settled with
    | @ok a t same =>
      dsimp only
      exact same ▸ (rest a).quiet t
    | fault same => exact .fault same
    | dangling => exact .dangling
    | exhausted => exact .exhausted

/-- An event that announces no call of a primitive is discreet. -/
theorem emit {event : Event} (other : config.called? event = none) :
    config.Discreet (Action.emit event) :=
  ⟨.emit event, fun s => .ok (by simp [primitiveCalls_push, other])⟩

theorem remark {event : Event} (plain : event.IsRemark = true) :
    config.Discreet (Action.emit event) :=
  emit (config.called?_remark plain)

/-- Updates of the innermost frame are discreet, whatever they do. -/
theorem modifyTop (f : Frame → Frame) : config.Discreet (Action.modifyTop f) :=
  ⟨.modifyTop f, fun _ => .ok rfl⟩

theorem allocate (size : Cell) (purpose : Purpose) :
    config.Discreet (Action.allocate size purpose) where
  blind := .allocate size purpose
  quiet s := by
    rw [Action.run_allocate]
    cases s.heap.allocate size purpose with
    | ok made => exact .ok (by simp [primitiveCalls_push, called?])
    | error fault => exact .fault rfl

theorem newArray (size : Cell) : config.Discreet (Action.newArray size) :=
  (allocate size .array).bind fun _ => (modifyTop _).bind fun _ => .pure _

theorem release (address : Address) : config.Discreet (Action.release address) where
  blind := .release address
  quiet s := by
    have other := config.called?_releaseEvent s.heap address
    rw [Action.run_release]
    exact .ok (by simp [primitiveCalls_push, other])

/-- Discarding a frame is discreet, with the blocks it releases. -/
theorem popFrame : config.Discreet Action.popFrame where
  blind := .popFrame
  quiet s := by
    cases found : s.stack.calls with
    | nil =>
      rw [Action.run_popFrame_nil found]
      exact .fault rfl
    | cons frame calls =>
      rw [Action.run_popFrame_cons found]
      exact .ok (config.primitiveCalls_afterPop s frame calls)

theorem varValue (var : VarId) : config.Discreet (config.varValue var) :=
  ⟨config.blind_varValue var, fun s => Steps.settles_varValue (fun _ _ _ same => same) var s rfl⟩

theorem assignVar (var : VarId) (value : Value) : config.Discreet (config.assignVar var value) where
  blind := config.blind_assignVar var value
  quiet s := by
    unfold Config.assignVar
    rw [Action.run_get_bind]
    split
    · exact .ok rfl
    · exact .ok rfl

theorem loadAt (address : Address) (type : TypeId) :
    config.Discreet (config.loadAt address type) where
  blind := config.blind_loadAt address type
  quiet s := Steps.settles_loadAt (fun _ _ _ same => same) address type s rfl

theorem storeAt (address : Address) (type : TypeId) (value : Value) :
    config.Discreet (config.storeAt address type value) where
  blind := config.blind_storeAt address type value
  quiet s := by
    unfold Config.storeAt
    rw [Action.run_store]
    cases s.heap.store address (config.types.width type) value.cell with
    | ok heap => exact .ok rfl
    | error fault => exact .fault rfl

theorem checkDepth : config.Discreet config.checkDepth :=
  ⟨config.blind_checkDepth, fun s => Steps.settles_checkDepth (fun _ _ _ same => same) s rfl⟩

/-- What is done discreetly leaves the channels as they are, and calls no primitive. -/
theorem keeps {action : Action α} (discreet : config.Discreet action) {s t : State}
    {result : Except Fault α} (returned : action.Returns s result t) :
    t.input = s.input ∧ t.printer = s.printer ∧
      config.primitiveCalls t.journal = config.primitiveCalls s.journal := by
  obtain ⟨input, printer⟩ := discreet.blind.keeps returned
  have settled := discreet.quiet s
  unfold Action.Returns at returned
  rw [returned] at settled
  cases result with
  | ok a => cases settled with | ok same => exact ⟨input, printer, same⟩
  | error fault => cases settled with | fault same => exact ⟨input, printer, same⟩

end Discreet

end Config

end CellC
