import CellC.Proofs.StackDiscipline

/-!
# Calls in the journal

The journal says when an activation begins and when it ends, and which calls are dispatched. So it
can be read off to which activation the dispatch of a call belongs: to the one at hand if as many
activations have ended since as have begun.

## Main definitions

* `dispatches`: the calls that entries of the journal announce in the activation at hand
* `State.Nests`: what was added to the journal belongs to activations that began in between
* `State.Announces`: the calls that were announced between two states

## Main results

* `Config.nests_functionCall`: what a call adds to the journal belongs to activations of its own
-/

namespace CellC

open CellC.Action (Settles)

/-! ### Entries -/

/-- The number of activations above the one at hand after an entry. -/
def Event.level (level : Nat) : Event → Nat
  | push _ => level + 1
  | pop _ _ => level - 1
  | scan | setup _ _ _ | run | entryReturned _ | call _ | dispatch _ _ | exec _ | declare _ _
  | allocate _ _ _ | release _ _ | releaseMissing _ | malformedInput _ _ | inputUnavailable => level

/-- The call that an entry announces, if it does so in the activation at hand. -/
def Event.dispatched (level : Nat) : Event → List ExprId
  | dispatch id _ => if level = 0 then [id] else []
  | scan | setup _ _ _ | run | entryReturned _ | call _ | push _ | pop _ _ | exec _ | declare _ _
  | allocate _ _ _ | release _ _ | releaseMissing _ | malformedInput _ _ | inputUnavailable => []

/-- The number of activations above the one at hand after some entries. -/
def levelAfter (level : Nat) (events : List Event) : Nat := events.foldl Event.level level

/-- The calls that some entries announce in the activation at hand, in order. -/
def dispatches : Nat → List Event → List ExprId
  | _, [] => []
  | level, event :: events => event.dispatched level ++ dispatches (event.level level) events

theorem levelAfter_append (level : Nat) (first second : List Event) :
    levelAfter level (first ++ second) = levelAfter (levelAfter level first) second :=
  List.foldl_append

theorem dispatches_append (level : Nat) (first second : List Event) :
    dispatches level (first ++ second) =
      dispatches level first ++ dispatches (levelAfter level first) second := by
  induction first generalizing level with
  | nil => rfl
  | cons event first ih =>
    rw [List.cons_append, dispatches, dispatches, ih, List.append_assoc]
    rfl

/-- From level `bottom` on, the entries announce nothing and lead back to where they began. -/
structure Nested (bottom : Nat) (events : List Event) : Prop where
  back : ∀ level ≥ bottom, levelAfter level events = level
  silent : ∀ level ≥ bottom, dispatches level events = []

namespace Nested

variable {bottom : Nat} {first second events : List Event}

theorem nil : Nested bottom [] := ⟨fun _ _ => rfl, fun _ _ => rfl⟩

theorem append (h₁ : Nested bottom first) (h₂ : Nested bottom second) :
    Nested bottom (first ++ second) where
  back level le := by rw [levelAfter_append, h₁.back level le, h₂.back level le]
  silent level le := by
    rw [dispatches_append, h₁.silent level le, h₁.back level le, h₂.silent level le]
    rfl

theorem mono (h : Nested bottom events) {above : Nat} (le : bottom ≤ above) :
    Nested above events :=
  ⟨fun level le' => h.back level (Nat.le_trans le le'),
    fun level le' => h.silent level (Nat.le_trans le le')⟩

/-- A single entry that is about neither frames nor calls. -/
theorem single {event : Event} (back : ∀ level, event.level level = level)
    (silent : ∀ level ≥ bottom, event.dispatched level = []) : Nested bottom [event] where
  back level _ := back level
  silent level le := by rw [dispatches, silent level le, back]; rfl

theorem remark {event : Event} (plain : event.IsRemark = true) : Nested 0 [event] := by
  cases event with
  | push | pop | dispatch | allocate | release | releaseMissing => cases plain
  | scan | setup | run | entryReturned | call | exec | declare | malformedInput
  | inputUnavailable =>
    exact .single (fun _ => rfl) fun _ _ => rfl

theorem releaseEvent (heap : Heap) (address : Address) :
    Nested 0 [Action.releaseEvent heap address] := by
  unfold Action.releaseEvent
  cases heap.blockAt? address <;> exact .single (fun _ => rfl) fun _ _ => rfl

theorem releaseEvents (heap : Heap) (bases : List Address) :
    Nested 0 (Action.releaseEvents heap bases) := by
  induction bases generalizing heap with
  | nil => exact .nil
  | cons base bases ih => exact (releaseEvent heap base).append (ih _)

/-- Within another activation calls are announced for that one. -/
theorem dispatch (id : ExprId) (values : List Value) : Nested 1 [.dispatch id values] :=
  .single (fun _ => rfl) fun _ le => if_neg (Nat.ne_of_gt le)

/-- What an activation adds from its beginning to its end, seen from below. -/
theorem activation (inside : Nested 1 events) (depth depth' : Nat) (ret : Value) :
    Nested 0 (.push depth :: events ++ [.pop depth' ret]) where
  back level _ := by
    have up : levelAfter level (.push depth :: events) = level + 1 :=
      inside.back (level + 1) (Nat.le_add_left 1 level)
    rw [levelAfter_append, up]
    rfl
  silent level _ := by
    have up : dispatches level (.push depth :: events) = [] :=
      inside.silent (level + 1) (Nat.le_add_left 1 level)
    rw [dispatches_append, up]
    rfl

end Nested

/-! ### States -/

/-- What was added to the journal from the one state to the other is nested. -/
def State.Nests (bottom : Nat) (s t : State) : Prop :=
  ∃ events, t.journal = s.journal ++ events.toArray ∧ Nested bottom events

namespace State.Nests

variable {bottom : Nat} {s t u : State}

theorem of_eq (same : t.journal = s.journal) : s.Nests bottom t :=
  ⟨[], by simpa using same, .nil⟩

theorem trans (h₁ : s.Nests bottom t) (h₂ : t.Nests bottom u) : s.Nests bottom u := by
  obtain ⟨first, added, nested⟩ := h₁
  obtain ⟨second, added', nested'⟩ := h₂
  exact ⟨first ++ second, by rw [added', added]; simp, nested.append nested'⟩

theorem push {event : Event} (nested : Nested bottom [event])
    (added : t.journal = s.journal.push event) : s.Nests bottom t :=
  ⟨[event], by rw [added]; simp, nested⟩

/-- An activation, seen from below. -/
theorem leave {s' : State} (inside : s.entered.Nests 1 s') (frame : Frame) (calls : List Frame) :
    s.Nests 0 (Action.afterPop s' frame calls) := by
  obtain ⟨events, added, nested⟩ := inside
  refine ⟨_, ?_, (nested.append ((Nested.releaseEvents s'.heap frame.arrays).mono
    (Nat.zero_le 1))).activation (s.stack.depth + 1) (calls.length + 1) frame.ret⟩
  simp only [Action.afterPop, added, State.entered]
  simp

theorem mono (h : s.Nests bottom t) {above : Nat} (le : bottom ≤ above) : s.Nests above t := by
  obtain ⟨events, added, nested⟩ := h
  exact ⟨events, added, nested.mono le⟩

end State.Nests

/-- From the one state to the other exactly the given calls were announced in the activation at
hand, in order, and as many other activations ended as began. -/
def State.Announces (s : State) (calls : List ExprId) (t : State) : Prop :=
  ∃ events, t.journal = s.journal ++ events.toArray ∧ levelAfter 0 events = 0 ∧
    dispatches 0 events = calls

namespace State.Announces

variable {s t u : State} {calls more : List ExprId}

theorem of_nests (h : s.Nests 0 t) : s.Announces [] t := by
  obtain ⟨events, added, nested⟩ := h
  exact ⟨events, added, nested.back 0 (Nat.le_refl 0), nested.silent 0 (Nat.le_refl 0)⟩

theorem trans (h₁ : s.Announces calls t) (h₂ : t.Announces more u) :
    s.Announces (calls ++ more) u := by
  obtain ⟨first, added, back, announced⟩ := h₁
  obtain ⟨second, added', back', announced'⟩ := h₂
  refine ⟨first ++ second, by rw [added', added]; simp, ?_, ?_⟩
  · rw [levelAfter_append, back, back']
  · rw [dispatches_append, back, announced, announced']

theorem dispatch (s : State) (id : ExprId) (values : List Value) :
    s.Announces [id] { s with journal := s.journal.push (.dispatch id values) } :=
  ⟨[.dispatch id values], by simp, rfl, rfl⟩

end State.Announces

namespace Config

/-- Seen from below, a step belongs to the activations above. -/
theorem steps_nests (config : Config) : config.Steps (State.Nests 1) where
  remark _ _ plain := .push ((Nested.remark plain).mono (Nat.zero_le 1)) rfl
  bind _ _ _ := .of_eq rfl
  bindRoot _ _ _ _ := .of_eq rfl
  record _ _ _ := .of_eq rfl
  returning _ _ := .of_eq rfl
  store _ _ _ _ _ _ := .of_eq rfl
  newArray _ _ _ _ _ := .push (.single (fun _ => rfl) fun _ _ => rfl) rfl
  newBlock _ _ _ _ _ := .push (.single (fun _ => rfl) fun _ _ => rfl) rfl
  dispatch _ id _ _ _ values _ _ := .push (.dispatch id values) rfl
  free s id _ _ _ value _ _ :=
    .trans (t := { s with journal := s.journal.push (.dispatch id [value]) })
      (.push (.dispatch id [value]) rfl)
      (.push ((Nested.releaseEvent s.heap value.address).mono (Nat.zero_le 1)) rfl)
  println _ _ := .of_eq rfl
  read _ := .of_eq rfl

/-- What a call adds to the journal belongs to activations of its own. -/
theorem nests_functionCall {config : Config} {levels : Nat} {callee : FuncId} {values : List Value}
    {type : TypeId} {s s' : State} {result : Except Fault Value}
    (returned : (config.functionCall (CellC.exec config levels) callee values type).Returns s result
      s') : s.Nests 0 s' := by
  have closed := config.closed_of_steps config.steps_nests (fun _ => .of_eq rfl) .trans
    (fun _ => .of_eq rfl) fun frame calls _ inside =>
      (inside.leave frame calls).mono (Nat.zero_le 1)
  exact (closed.functionCall_of (T := State.Nests 0) (F := fun _ => State.Nests 0)
    (fun _ _ => .of_eq rfl) (fun inside _ => inside.2.leave _ _)
    (fun inside _ => inside.2.leave _ _) returned).elim

section Primitives

variable {config : Config} {type : TypeId} {s : State}

theorem settles_readValue_nests :
    Settles (s.Nests 0) (fun _ => s.Nests 0) ((config.readValue type).run s) := by
  have unavailable (t : State) (start : s.Nests 0 t) :
      Settles (s.Nests 0) (fun _ => s.Nests 0)
        ((do
          Action.emit .inputUnavailable
          pure (config.types.view type 0) : Action Value).run t) :=
    .ok (start.trans (.push (.remark rfl) rfl))
  unfold readValue Action.readInteger
  rw [EStateM.run_bind, EStateM.run_bind, EStateM.run_modifyGet]
  dsimp only
  cases s.input.read.1 with
  | value n => exact .ok (.of_eq rfl)
  | unavailable => exact unavailable _ (.of_eq rfl)
  | malformed word error => exact unavailable _ (.push (.remark rfl) rfl)

/-- A primitive announces no calls. -/
theorem nests_primitiveCall {primitive : Primitive} {values : List Value} {s' : State}
    {result : Except Fault Value}
    (returned : (config.primitiveCall primitive values type).Returns s result s') :
    s.Nests 0 s' := by
  refine (Outcome.of_settles (R := State.Nests 0) (E := fun _ => State.Nests 0) ?_ returned).elim
  unfold primitiveCall checkArity
  by_cases arity : values.length = primitive.arity
  swap
  · rw [if_neg arity]
    exact .fault (.of_eq rfl)
  rw [if_pos arity, EStateM.run_bind, EStateM.run_pure]
  dsimp only
  cases primitive with
  | read =>
    dsimp only
    by_cases asks : config.prompt = true
    · rw [if_pos asks, EStateM.run_bind, Action.run_println]
      exact settles_readValue_nests (s := { s with printer := s.printer.println promptLine })
    · rw [if_neg asks]
      exact settles_readValue_nests
  | print => exact .ok (.of_eq rfl)
  | allocate =>
    rw [EStateM.run_bind, Action.run_allocate]
    cases s.heap.allocate (values.headD .zero).cell .explicit with
    | ok made => exact .ok (.push (.single (fun _ => rfl) fun _ _ => rfl) rfl)
    | error fault => exact .fault (.of_eq rfl)
  | free =>
    rw [EStateM.run_bind, Action.run_discard, Action.run_release]
    exact .ok (.push (.releaseEvent s.heap _) rfl)

end Primitives

end Config

end CellC
