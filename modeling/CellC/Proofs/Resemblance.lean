import CellC.Proofs.Correspondence
import Mathlib.Data.Option.Basic

/-!
# States that resemble each other

What a program does depends on the cells of the values that are bound to its variables, and on
nothing else that frames hold. Neither the values that are recorded for expressions nor the tags of
values are ever consulted: runs from two states that differ only there go the same way.

## Main definitions

* `Likeness`: what values in the same place, and what is recorded for one expression, may differ in
* `State.Resembles`: states that are alike in this sense, and equal otherwise
* `Likeness.exceptRecords`, `Likeness.exceptTags`: the two cases

## Main results

* `Config.correspondence_resembles`: every step of the machine keeps a likeness
* `recorded_values_unread`: what is recorded for expressions makes no difference
* `tags_unread`: the tags of values make no difference
-/

namespace CellC

open CellC.Action (Related Matching)

/-! ### Likenesses -/

/-- How much alike two states are to be: `values` relates values that stand in the same place, and
`records` what is recorded for one expression, if anything. -/
structure Likeness where
  values : Value → Value → Prop
  records : Option Value → Option Value → Prop
  refl : ∀ v, values v v
  cell : ∀ {v w}, values v w → v.cell = w.cell
  nothing : records none none
  recorded : ∀ {v w}, values v w → records (some v) (some w)

/-- States that are equal except for what is recorded for expressions. -/
def Likeness.exceptRecords : Likeness where
  values := (· = ·)
  records _ _ := True
  refl _ := rfl
  cell := congrArg Value.cell
  nothing := trivial
  recorded _ := trivial

/-- Values with the same cell, whatever their tags. -/
def Value.SameCell (v w : Value) : Prop := v.cell = w.cell

instance (v w : Value) : Decidable (v.SameCell w) := inferInstanceAs (Decidable (_ = _))

/-- States that are equal except for the tags of values. -/
def Likeness.exceptTags : Likeness where
  values := Value.SameCell
  records := Option.Rel Value.SameCell
  refl _ := rfl
  cell same := same
  nothing := .none
  recorded := .some

/-- Events that report the same of related values. -/
inductive Event.Resembles (V : Value → Value → Prop) : Event → Event → Prop
  | same (event : Event) : Resembles V event event
  | entryReturned {v w : Value} : V v w → Resembles V (.entryReturned v) (.entryReturned w)
  | dispatch {expr : ExprId} {vs ws : List Value} : List.Forall₂ V vs ws →
    Resembles V (.dispatch expr vs) (.dispatch expr ws)
  | pop {depth : Nat} {v w : Value} : V v w → Resembles V (.pop depth v) (.pop depth w)
  | declare {var : VarId} {v w : Value} : V v w → Resembles V (.declare var v) (.declare var w)

variable {like : Likeness}

/-! ### Frames -/

/-- Frames that bind the same variables, to related values, and are alike in the rest. -/
structure Frame.Resembles (like : Likeness) (f g : Frame) : Prop where
  value? : ∀ var, Option.Rel like.values (f.value? var) (g.value? var)
  recorded : ∀ expr, like.records (f.recorded expr) (g.recorded expr)
  ret : like.values f.ret g.ret
  arrays : f.arrays = g.arrays

namespace Frame.Resembles

theorem empty : Frame.Resembles like {} {} where
  value? _ := .none
  recorded _ := like.nothing
  ret := like.refl _
  arrays := rfl

variable {f g : Frame} (h : f.Resembles like g)
include h

/-- Frames that resemble each other bind the same variables. -/
theorem binds (var : VarId) : f.binds var = g.binds var := by
  rw [Frame.binds_eq_isSome, Frame.binds_eq_isSome]
  have both := h.value? var
  generalize f.value? var = a at both
  generalize g.value? var = b at both
  cases both <;> rfl

/-- Related values under the same name keep frames resembling. -/
theorem bind (var : VarId) {v w : Value} (values : like.values v w) :
    (f.bind var v).Resembles like (g.bind var w) where
  value? other := by
    rw [Frame.value?_bind, Frame.value?_bind]
    split
    · exact .some values
    · exact h.value? other
  recorded := h.recorded
  ret := h.ret
  arrays := h.arrays

theorem record (expr : ExprId) {v w : Value} (values : like.values v w) :
    (f.record expr v).Resembles like (g.record expr w) where
  value? := h.value?
  recorded other := by
    rw [Frame.recorded_record, Frame.recorded_record]
    split
    · exact like.recorded values
    · exact h.recorded other
  ret := h.ret
  arrays := h.arrays

/-- Related values to return keep frames resembling. -/
theorem returning {v w : Value} (values : like.values v w) :
    (f.returning v).Resembles like (g.returning w) where
  value? := h.value?
  recorded := h.recorded
  ret := values
  arrays := h.arrays

theorem adopt (base : Address) : (f.adopt base).Resembles like (g.adopt base) where
  value? := h.value?
  recorded := h.recorded
  ret := h.ret
  arrays := congrArg (· ++ [base]) h.arrays

end Frame.Resembles

/-! ### Stacks and states -/

/-- Stacks of equally many frames that are alike. -/
structure CallStack.Resembles (like : Likeness) (first second : CallStack) : Prop where
  root : first.root.Resembles like second.root
  calls : List.Forall₂ (Frame.Resembles like) first.calls second.calls

namespace CallStack.Resembles

variable {first second : CallStack} (h : first.Resembles like second)
include h

/-- Stacks that resemble each other are equally deep, so a limit refuses the same calls. -/
theorem depth : first.depth = second.depth := congrArg (· + 1) h.calls.length_eq

theorem top : first.top.Resembles like second.top := by
  obtain ⟨root, calls⟩ := first
  obtain ⟨root', calls'⟩ := second
  obtain ⟨roots, all⟩ := h
  cases all with
  | nil => exact roots
  | cons frame _ => exact frame

/-- An update that keeps frames resembling keeps the stacks so, in their innermost frames. -/
theorem modifyTop {f g : Frame → Frame}
    (kept : ∀ a b, a.Resembles like b → (f a).Resembles like (g b)) :
    (first.modifyTop f).Resembles like (second.modifyTop g) := by
  obtain ⟨root, calls⟩ := first
  obtain ⟨root', calls'⟩ := second
  obtain ⟨roots, all⟩ := h
  cases all with
  | nil => exact ⟨kept _ _ roots, .nil⟩
  | cons frame rest => exact ⟨roots, .cons (kept _ _ frame) rest⟩

/-- An update that keeps frames resembling keeps the stacks so, in their bottom frames. -/
theorem modifyRoot {f g : Frame → Frame}
    (kept : ∀ a b, a.Resembles like b → (f a).Resembles like (g b)) :
    (first.modifyRoot f).Resembles like (second.modifyRoot g) :=
  ⟨kept _ _ h.root, h.calls⟩

theorem push : first.push.Resembles like second.push := ⟨h.root, .cons .empty h.calls⟩

end CallStack.Resembles

/-- States whose frames and journals are alike and that are equal in everything else. -/
structure State.Resembles (like : Likeness) (s t : State) : Prop where
  stack : s.stack.Resembles like t.stack
  heap : s.heap = t.heap
  input : s.input = t.input
  printer : s.printer = t.printer
  globalsReady : s.globalsReady = t.globalsReady
  journal : List.Forall₂ (Event.Resembles like.values) s.journal.toList t.journal.toList

namespace State.Resembles

variable {s t : State} (h : s.Resembles like t)
include h

theorem modifyTop {f g : Frame → Frame}
    (kept : ∀ a b, a.Resembles like b → (f a).Resembles like (g b)) :
    State.Resembles like { s with stack := s.stack.modifyTop f }
      { t with stack := t.stack.modifyTop g } :=
  { h with stack := h.stack.modifyTop kept }

theorem emit {event event' : Event} (events : event.Resembles like.values event') :
    State.Resembles like { s with journal := s.journal.push event }
      { t with journal := t.journal.push event' } where
  stack := h.stack
  heap := h.heap
  input := h.input
  printer := h.printer
  globalsReady := h.globalsReady
  journal := by
    rw [Array.toList_push, Array.toList_push]
    exact List.rel_append h.journal (.cons events .nil)

/-- New activations resemble each other. -/
theorem entered : s.entered.Resembles like t.entered := by
  have pushed : State.Resembles like { s with stack := s.stack.push }
      { t with stack := t.stack.push } := { h with stack := h.stack.push }
  unfold State.entered
  rw [h.stack.depth]
  exact pushed.emit (.same _)

/-- The arrays of frames that are alike are the same, so the same blocks end with the frames. -/
theorem afterPop {frame frame' : Frame} {calls calls' : List Frame}
    (top : frame.Resembles like frame') (rest : List.Forall₂ (Frame.Resembles like) calls calls') :
    (Action.afterPop s frame calls).Resembles like (Action.afterPop t frame' calls') := by
  have released (events : Array Event) :
      State.Resembles like
        { s with
          stack := { s.stack with calls }
          heap := t.heap.removeAll frame'.arrays
          journal := s.journal ++ events }
        { t with
          stack := { t.stack with calls := calls' }
          heap := t.heap.removeAll frame'.arrays
          journal := t.journal ++ events } :=
    { h with
      stack := ⟨h.stack.root, rest⟩
      heap := rfl
      journal := by
        rw [Array.toList_append, Array.toList_append]
        exact List.rel_append h.journal (List.forall₂_same.mpr fun event _ => .same event) }
  unfold Action.afterPop
  rw [h.heap, top.arrays, rest.length_eq]
  exact (released _).emit (.pop top.ret)

end State.Resembles

/-! ### Steps -/

namespace Config

/-- The action does the same in states that are alike, up to the likeness of what it yields. -/
abbrev Indifferent {α : Type} (like : Likeness) (V : α → α → Prop) (action other : Action α) :
    Prop :=
  Related (State.Resembles like) (fun _ => State.Resembles like) V action other

variable {config : Config}

/-- Announcing events that resemble each other is indifferent. -/
theorem indifferent_emit {event event' : Event} (events : event.Resembles like.values event') :
    Indifferent like (· = ·) (Action.emit event) (Action.emit event') :=
  fun _ _ h => .ok rfl (h.emit events)

theorem indifferent_modifyTop {f g : Frame → Frame}
    (kept : ∀ a b, a.Resembles like b → (f a).Resembles like (g b)) :
    Indifferent like (· = ·) (Action.modifyTop f) (Action.modifyTop g) :=
  fun _ _ h => .ok rfl (h.modifyTop kept)

theorem indifferent_bind (var : VarId) (value : Value) :
    Indifferent like (· = ·) (Action.bind var value) (Action.bind var value) :=
  indifferent_modifyTop fun _ _ frame => frame.bind var (like.refl value)

theorem indifferent_println (line : String) :
    Indifferent like (· = ·) (Action.println line) (Action.println line) := by
  intro s t h
  have printed : s.printer.println line = t.printer.println line := by rw [h.printer]
  exact .ok rfl { h with printer := printed }

theorem indifferent_readInteger :
    Indifferent like (· = ·) Action.readInteger Action.readInteger := by
  intro s t h
  have read : State.Resembles like { s with input := t.input.read.2 }
      { t with input := t.input.read.2 } := { h with input := rfl }
  unfold Action.readInteger
  rw [EStateM.run_bind, EStateM.run_bind, EStateM.run_modifyGet, EStateM.run_modifyGet]
  dsimp only
  rw [h.input]
  cases t.input.read.1 with
  | value n => exact .ok rfl read
  | unavailable => exact .ok rfl read
  | malformed word error => exact .ok rfl (read.emit (.same _))

/-- Variables are visible on both sides or on neither, with related values. -/
theorem rel_visibleValue? {first second : CallStack} (h : first.Resembles like second)
    (var : VarId) :
    Option.Rel like.values (config.visibleValue? first var) (config.visibleValue? second var) := by
  have top := h.top.value? var
  unfold visibleValue?
  generalize first.top.value? var = a at top
  generalize second.top.value? var = b at top
  cases top with
  | some values => exact .some values
  | none =>
    dsimp only
    split
    · exact h.root.value? var
    · exact .none

/-- Reading a variable gives related values, or fails alike. -/
theorem indifferent_varValue (var : VarId) :
    Indifferent like like.values (config.varValue var) (config.varValue var) := by
  intro s t h
  have visible : Option.Rel like.values (config.visibleValue? s.stack var)
      (config.visibleValue? t.stack var) := rel_visibleValue? h.stack var
  unfold varValue
  rw [Action.run_get_bind, Action.run_get_bind]
  generalize config.visibleValue? s.stack var = a at visible
  generalize config.visibleValue? t.stack var = b at visible
  cases visible with
  | some values => exact .ok values h
  | none => exact .fault h

/-- An assignment goes to the same frame on both sides. -/
theorem indifferent_assignVar (var : VarId) (value : Value) :
    Indifferent like (· = ·) (config.assignVar var value) (config.assignVar var value) := by
  intro s t h
  have bound (a b : Frame) (frame : a.Resembles like b) :
      (a.bind var value).Resembles like (b.bind var value) := frame.bind var (like.refl value)
  unfold assignVar
  rw [Action.run_get_bind, Action.run_get_bind]
  rw [h.stack.top.binds]
  split
  · exact .ok rfl { h with stack := h.stack.modifyRoot bound }
  · exact .ok rfl (h.modifyTop bound)

/-- Loads agree, since the heaps are equal. -/
theorem indifferent_loadAt (address : Address) (type : TypeId) :
    Indifferent like (· = ·) (config.loadAt address type) (config.loadAt address type) := by
  unfold loadAt
  split
  · exact .pure rfl
  refine Related.bind_eq (fun s t h => ?_) fun cell => .pure rfl
  rw [Action.run_load, Action.run_load, h.heap]
  cases t.heap.load address (config.types.width type) with
  | ok cell => exact .ok rfl h
  | error fault => exact .fault h

/-- Stores agree, and leave equal heaps. -/
theorem indifferent_storeAt (address : Address) (type : TypeId) (value : Value) :
    Indifferent like (· = ·) (config.storeAt address type value)
      (config.storeAt address type value) := by
  intro s t h
  unfold storeAt
  rw [Action.run_store, Action.run_store, h.heap]
  cases t.heap.store address (config.types.width type) value.cell with
  | ok heap => exact .ok rfl { h with heap := rfl }
  | error fault => exact .fault h

/-- Allocations agree, and leave equal heaps. -/
theorem indifferent_allocate (size : Cell) (purpose : Purpose) :
    Indifferent like (· = ·) (Action.allocate size purpose) (Action.allocate size purpose) := by
  intro s t h
  rw [Action.run_allocate, Action.run_allocate, h.heap]
  cases t.heap.allocate size purpose with
  | ok made =>
    have placed : State.Resembles like { s with heap := made.2 } { t with heap := made.2 } :=
      { h with heap := rfl }
    exact .ok rfl (placed.emit (.same _))
  | error fault => exact .fault h

/-- Blocks are released alike, or equally missing. -/
theorem indifferent_release (address : Address) :
    Indifferent like (· = ·) (Action.release address) (Action.release address) := by
  intro s t h
  have released : State.Resembles like { s with heap := t.heap.remove address }
      { t with heap := t.heap.remove address } := { h with heap := rfl }
  rw [Action.run_release, Action.run_release, h.heap]
  exact .ok rfl (released.emit (.same _))

/-- A call is refused on both sides or on neither. -/
theorem indifferent_checkDepth :
    Indifferent like (· = ·) config.checkDepth config.checkDepth := by
  intro s t h
  unfold checkDepth
  cases config.depthLimit with
  | none => exact .ok rfl h
  | some limit =>
    dsimp only
    rw [Action.run_get_bind, Action.run_get_bind, h.stack.depth]
    split
    · exact .fault h
    · exact .ok rfl h

theorem indifferent_readValue (type : TypeId) :
    Indifferent like (· = ·) (config.readValue type) (config.readValue type) := by
  refine indifferent_readInteger.bind_eq fun n => ?_
  cases n with
  | some n => exact .pure rfl
  | none => exact (indifferent_emit (.same _)).bind_eq fun _ => .pure rfl

/-- A primitive sees the cells of its arguments only. -/
theorem indifferent_dispatchPrimitive (id : ExprId) (primitive : Primitive)
    {values values' : List Value} (related : List.Forall₂ like.values values values')
    (type : TypeId) :
    Indifferent like (· = ·) (config.dispatchPrimitive id primitive values type)
      (config.dispatchPrimitive id primitive values' type) := by
  have argument : (values.headD .zero).cell = (values'.headD .zero).cell := by
    cases related with
    | nil => rfl
    | cons value _ => exact like.cell value
  unfold dispatchPrimitive primitiveCall Value.address
  dsimp only
  rw [argument, related.length_eq]
  refine (indifferent_emit (.dispatch related)).bind_eq fun _ => ?_
  refine (related_checkArity (fun _ _ _ _ start => start) _ _ _).bind_eq fun _ => ?_
  cases primitive with
  | read =>
    dsimp only
    split
    · exact (indifferent_println _).bind_eq fun _ => indifferent_readValue type
    · exact indifferent_readValue type
  | print => exact (indifferent_println _).bind_eq fun _ => .pure rfl
  | allocate => exact (indifferent_allocate _ _).bind_eq fun _ => .pure rfl
  | free => exact (indifferent_release _).discard.bind_eq fun _ => .pure rfl

/-- Frames that are alike own the same arrays, and what they are to return is related. -/
theorem matching_popFrame {V : Value → Value → Prop} (weaker : ∀ v w, like.values v w → V v w)
    {s t : State} (h : s.Resembles like t) :
    Matching (State.Resembles like) (fun _ => State.Resembles like) V (Action.popFrame.run s)
      (Action.popFrame.run t) := by
  have all := h.stack.calls
  cases found : s.stack.calls with
  | nil =>
    cases found' : t.stack.calls with
    | nil =>
      rw [Action.run_popFrame_nil found, Action.run_popFrame_nil found']
      exact .fault h
    | cons frame calls =>
      rw [found, found'] at all
      cases all
  | cons frame calls =>
    cases found' : t.stack.calls with
    | nil =>
      rw [found, found'] at all
      cases all
    | cons frame' calls' =>
      rw [found, found'] at all
      cases all with
      | cons top rest =>
        rw [Action.run_popFrame_cons found, Action.run_popFrame_cons found']
        exact .ok (weaker _ _ top.ret) (h.afterPop top rest)

variable (like config) in
/-- Runs from states that are alike go the same way, also if they go wrong. -/
theorem correspondence_resembles :
    Correspondence config config (fun _ : Unit => State.Resembles like)
      (fun _ _ => State.Resembles like) like.values where
  program := rfl
  setup := rfl
  refl := like.refl
  cell := like.cell
  fault _ start := start
  remark _ event _ := indifferent_emit (.same event)
  varValue _ var := indifferent_varValue var
  assignVar _ var value := indifferent_assignVar var value
  loadAt _ address type :=
    (indifferent_loadAt address type).weaken fun _ w same => same ▸ like.refl w
  storeAt _ address type value := indifferent_storeAt address type value
  record _ expr _ _ values := indifferent_modifyTop fun _ _ frame => frame.record expr values
  bind _ var value := indifferent_bind var value
  returning _ _ _ values := indifferent_modifyTop fun _ _ frame => frame.returning values
  newArray _ size :=
    (indifferent_allocate size .array).bind_eq fun base =>
      (indifferent_modifyTop fun _ _ frame => frame.adopt base).bind_eq fun _ => .pure rfl
  primitive _ id _ _ type primitive _ _ _ _ related :=
    (indifferent_dispatchPrimitive id primitive related type).weaken
      fun _ w same => same ▸ like.refl w
  dispatch _ _ _ _ _ _ _ _ _ related := indifferent_emit (.dispatch related)
  checkDepth _ := indifferent_checkDepth
  activation _ exec exec' params values values' body bodies cells := by
    intro s t h
    refine matching_activation (I := State.Resembles like) (F := fun _ => State.Resembles like)
      h.entered ?_ (fun _ _ => matching_popFrame fun _ _ same => same)
      (fun _ _ _ => matching_popFrame fun _ _ _ => trivial)
    exact related_boundBody rfl indifferent_bind params cells (bodies () body)

variable (like config) in
/-- Whole runs agree, up to the value the entry point returns. -/
theorem indifferent_run (levels : Nat) :
    Indifferent like like.values (config.run levels) (config.run levels) := by
  have rules := config.correspondence_resembles like
  refine rules.running (i := ()) (rules.eval levels ()) (fun _ _ h => h.globalsReady.symm)
    (fun _ _ h => { h with globalsReady := rfl }) (fun callee _ _ => ?_)
    (fun _ _ values => indifferent_emit (.entryReturned values))
  exact rules.functionCall (i := ()) (rules.exec levels) callee

end Config

/-! ### What makes no difference -/

/-- From both states the action ends alike: with values related by `V`, or with the same fault, in
states that are alike again, or both times without returning. -/
abbrev Action.EndsAlike {α : Type} (like : Likeness) (V : α → α → Prop) (s t : State)
    (action : Action α) : Prop :=
  Matching (State.Resembles like) (fun _ => State.Resembles like) V (action.run s) (action.run t)

/-- **Recorded values are never consulted.** From two states that are equal except for what is
recorded for expressions in their frames, every evaluation, every execution and every run ends
alike: with the same value, completion or fault, in states that are again equal except for what is
recorded. -/
theorem recorded_values_unread (config : Config) (levels : Nat) {s t : State}
    (alike : s.Resembles .exceptRecords t) :
    (∀ id, Action.EndsAlike .exceptRecords (· = ·) s t (CellC.eval config levels id)) ∧
    (∀ id, Action.EndsAlike .exceptRecords (· = ·) s t (CellC.exec config levels id)) ∧
    Action.EndsAlike .exceptRecords (· = ·) s t (config.run levels) := by
  have rules := config.correspondence_resembles .exceptRecords
  refine ⟨fun id => ?_, fun id => ?_, ?_⟩
  · exact rules.eval levels () id alike
  · rw [← Completion.related_eq]
    exact rules.exec levels () id alike
  · exact config.indifferent_run .exceptRecords levels alike

/-- A loop that counts the file-scope variable `i` up to three. -/
def countToThree : Config where
  program := {
    names := ⟨⟨#["", "i"]⟩⟩
    vars := #[⟨⟨1⟩, .int, none⟩]
    exprs := #[⟨.ident ⟨0⟩, .int⟩, ⟨.intLit 3, .int⟩, ⟨.binary .lt ⟨0⟩ ⟨1⟩, .int⟩,
      ⟨.intLit 1, .int⟩, ⟨.binary .add ⟨0⟩ ⟨3⟩, .int⟩, ⟨.binary .assign ⟨0⟩ ⟨4⟩, .int⟩]
    stmts := #[.expr ⟨5⟩, .while ⟨2⟩ ⟨0⟩] }
  setup := { globals := [⟨0⟩], entry := ⟨0⟩ }

/-- Neither a recorded zero for the condition nor a recorded seven for the sum makes a difference to
the loop. -/
theorem recorded_values_unread_countToThree :
    let start : Frame := Frame.bind {} ⟨0⟩ (.int 0)
    let stale : Frame := (start.record ⟨2⟩ (.int 0)).record ⟨4⟩ (.int 7)
    ∃ s' t', (CellC.exec countToThree 9 ⟨1⟩).Returns { stack := { root := start } }
        (.ok .completed) s' ∧
      (CellC.exec countToThree 9 ⟨1⟩).Returns { stack := { root := stale } } (.ok .completed) t' ∧
      s'.Resembles .exceptRecords t' ∧ s'.stack.root.value? ⟨0⟩ = some (.int 3) := by
  intro start stale
  have bound : start.Resembles .exceptRecords start := Frame.Resembles.empty.bind ⟨0⟩ rfl
  have frames : start.Resembles .exceptRecords stale :=
    ⟨bound.value?, fun _ => trivial, rfl, rfl⟩
  have alike : State.Resembles .exceptRecords { stack := { root := start } }
      { stack := { root := stale } } := ⟨⟨frames, .nil⟩, rfl, rfl, rfl, rfl, .nil⟩
  have ran : ∃ s', (CellC.exec countToThree 9 ⟨1⟩).run { stack := { root := start } } =
      .ok .completed s' ∧ s'.stack.root.value? ⟨0⟩ = some (.int 3) := ⟨_, rfl, rfl⟩
  obtain ⟨s', run, counted⟩ := ran
  have same := (recorded_values_unread countToThree 9 alike).2.1 ⟨1⟩
  unfold Action.EndsAlike at same
  rw [run] at same
  generalize other : (CellC.exec countToThree 9 ⟨1⟩).run { stack := { root := stale } } = answer
    at same
  cases same with
  | ok completions states =>
    subst completions
    exact ⟨s', _, run, other, states, counted⟩

/-- **Tags are never consulted.** From two states that are equal except for the tags of the values
in their frames, every evaluation, every execution and every run ends alike: with values of the same
cell, the same completion up to a tag, or the same fault, in states that are again equal except for
tags. -/
theorem tags_unread (config : Config) (levels : Nat) {s t : State}
    (alike : s.Resembles .exceptTags t) :
    (∀ id, Action.EndsAlike .exceptTags Value.SameCell s t (CellC.eval config levels id)) ∧
    (∀ id, Action.EndsAlike .exceptTags (Completion.Related Value.SameCell) s t
      (CellC.exec config levels id)) ∧
    Action.EndsAlike .exceptTags Value.SameCell s t (config.run levels) := by
  have rules := config.correspondence_resembles .exceptTags
  refine ⟨fun id => ?_, fun id => ?_, ?_⟩
  · exact rules.eval levels () id alike
  · exact rules.exec levels () id alike
  · exact config.indifferent_run .exceptTags levels alike

/-- The expression `*p + c` for a pointer `p` and a character `c` at file scope. -/
def pointeePlusChar : Config where
  program := {
    names := ⟨⟨#["", "p", "c"]⟩⟩
    types := ⟨⟨#[.int, .char, .void, .pointer .int]⟩⟩
    vars := #[⟨⟨1⟩, ⟨3⟩, none⟩, ⟨⟨2⟩, .char, none⟩]
    exprs := #[⟨.ident ⟨0⟩, ⟨3⟩⟩, ⟨.unary .deref ⟨0⟩, .int⟩, ⟨.ident ⟨1⟩, .char⟩,
      ⟨.binary .add ⟨1⟩ ⟨2⟩, .int⟩] }
  setup := { globals := [⟨0⟩, ⟨1⟩], entry := ⟨0⟩ }

/-- The sum comes out the same if the pointer is tagged as a number and the character as an
array. -/
theorem tags_unread_pointeePlusChar :
    let heap : Heap := { blocks := [⟨⟨0x10000000⟩, .explicit, #[2, 1, 0, 0, 0, 0, 0, 0]⟩] }
    let tagged : Frame := (Frame.bind {} ⟨0⟩ (.pointer ⟨0x10000000⟩)).bind ⟨1⟩ (.char 5)
    let mistagged : Frame := (Frame.bind {} ⟨0⟩ (.int 0x10000000)).bind ⟨1⟩ (.array ⟨5⟩)
    ∃ s' t' v, (CellC.eval pointeePlusChar 9 ⟨3⟩).Returns { stack := { root := tagged }, heap }
        (.ok (.int 0x107)) s' ∧
      (CellC.eval pointeePlusChar 9 ⟨3⟩).Returns { stack := { root := mistagged }, heap }
        (.ok v) t' ∧ v.cell = 0x107 ∧ s'.Resembles .exceptTags t' := by
  intro heap tagged mistagged
  have frames : tagged.Resembles .exceptTags mistagged :=
    (Frame.Resembles.empty.bind ⟨0⟩ rfl).bind ⟨1⟩ rfl
  have alike : State.Resembles .exceptTags { stack := { root := tagged }, heap }
      { stack := { root := mistagged }, heap } := ⟨⟨frames, .nil⟩, rfl, rfl, rfl, rfl, .nil⟩
  have ran : ∃ s', (CellC.eval pointeePlusChar 9 ⟨3⟩).run { stack := { root := tagged }, heap } =
      .ok (.int 0x107) s' := ⟨_, rfl⟩
  obtain ⟨s', run⟩ := ran
  have same := (tags_unread pointeePlusChar 9 alike).1 ⟨3⟩
  unfold Action.EndsAlike at same
  rw [run] at same
  generalize other :
    (CellC.eval pointeePlusChar 9 ⟨3⟩).run { stack := { root := mistagged }, heap } = answer at same
  cases same with
  | ok cells states => exact ⟨s', _, _, run, other, cells.symm, states⟩

end CellC
