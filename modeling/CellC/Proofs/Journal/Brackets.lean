import CellC.Proofs.Nesting

/-!
# Frames in the journal

The push of a frame is noted with the number of frames that there are afterwards, and its pop with
the number that are left. Whatever happens in between, and whether it ends with a value or a fault,
the frame is popped after all frames that were pushed onto it. So the notes of an evaluation, an
execution, a call or a run are brackets: each push has its pop, with one frame less, and what lies
between the two has the same form.

## Main definitions

* `Brackets`: notes in which pushes and pops match
* `State.Bracketed`: what was noted between two states is in brackets

## Main results

* `Config.steps_bracketed`: every step leaves as many frames as there were and notes none
* `State.Bracketed.leave`: an activation adds a pair of brackets
-/

namespace CellC

/-! ### Notes -/

/-- Whether an event reports that a frame was pushed or popped. -/
def Event.concernsFrame : Event → Bool
  | push _ | pop _ _ => true
  | scan | setup _ _ _ | run | entryReturned _ | call _ | dispatch _ _ | exec _ | declare _ _
  | allocate _ _ _ | release _ _ | releaseMissing _ | malformedInput _ _ | inputUnavailable => false

theorem Event.concernsFrame_of_isRemark {event : Event} (plain : event.IsRemark = true) :
    event.concernsFrame = false := by
  cases event <;> first | rfl | cases plain

theorem Action.concernsFrame_releaseEvent (heap : Heap) (address : Address) :
    (releaseEvent heap address).concernsFrame = false := by
  unfold releaseEvent
  cases heap.blockAt? address <;> rfl

/-- Beginning and ending with `depth` frames, pushes and pops match: a push notes one frame more
than there are, and the pop that belongs to it as many as there were before. -/
inductive Brackets : Nat → List Event → Prop
  | nil {depth} : Brackets depth []
  | other {depth event events} : event.concernsFrame = false → Brackets depth events →
      Brackets depth (event :: events)
  | activation {depth ret inside rest} : Brackets (depth + 1) inside → Brackets depth rest →
      Brackets depth (.push (depth + 1) :: (inside ++ .pop depth ret :: rest))

namespace Brackets

variable {depth : Nat} {first second : List Event}

theorem append (h : Brackets depth first) (h' : Brackets depth second) :
    Brackets depth (first ++ second) := by
  induction h with
  | nil => exact h'
  | other plain _ ih => exact .other plain (ih h')
  | @activation depth ret inside rest within _ _ ih =>
    rw [List.cons_append, List.append_assoc]
    exact .activation within (ih h')

theorem single {event : Event} (plain : event.concernsFrame = false) : Brackets depth [event] :=
  .other plain .nil

theorem releaseEvents (heap : Heap) (bases : List Address) :
    Brackets depth (Action.releaseEvents heap bases) := by
  induction bases generalizing heap with
  | nil => exact .nil
  | cons base bases ih => exact .other (Action.concernsFrame_releaseEvent heap base) (ih _)

end Brackets

/-! ### States -/

/-- There are as many frames in the one state as in the other, and what was noted in between is in
brackets. -/
structure State.Bracketed (s t : State) : Prop where
  depth : t.stack.depth = s.stack.depth
  added : ∃ events, t.journal.toList = s.journal.toList ++ events ∧ Brackets s.stack.depth events

namespace State.Bracketed

variable {s t u : State}

/-- Nothing was noted. -/
theorem still (depth : t.stack.depth = s.stack.depth) (same : t.journal = s.journal) :
    s.Bracketed t :=
  ⟨depth, [], by rw [same, List.append_nil], .nil⟩

theorem trans (h₁ : s.Bracketed t) (h₂ : t.Bracketed u) : s.Bracketed u := by
  obtain ⟨first, added, brackets⟩ := h₁.added
  obtain ⟨second, added', brackets'⟩ := h₂.added
  rw [h₁.depth] at brackets'
  exact ⟨h₂.depth.trans h₁.depth, first ++ second, by rw [added', added, List.append_assoc],
    brackets.append brackets'⟩

/-- Something that does not concern frames was noted. -/
theorem note {event : Event} (plain : event.concernsFrame = false)
    (depth : t.stack.depth = s.stack.depth) (added : t.journal = s.journal.push event) :
    s.Bracketed t :=
  ⟨depth, [event], by rw [added, Array.toList_push], .single plain⟩

/-- An activation puts what was noted in its course between a push and a pop. -/
theorem leave {s' : State} {frame : Frame} {calls : List Frame}
    (found : s'.stack.calls = frame :: calls) (inside : s.entered.Bracketed s') :
    s.Bracketed (Action.afterPop s' frame calls) := by
  obtain ⟨events, added, brackets⟩ := inside.added
  have left : calls.length + 1 = s.stack.depth := by
    have depth := inside.depth
    rw [CallStack.depth, found, List.length_cons] at depth
    exact Nat.succ.inj depth
  have within : Brackets (s.stack.depth + 1)
      (events ++ Action.releaseEvents s'.heap frame.arrays) := brackets.append (.releaseEvents _ _)
  refine ⟨left, .push (s.stack.depth + 1) :: (_ ++ [.pop s.stack.depth frame.ret]), ?_,
    .activation within .nil⟩
  simp [Action.afterPop, State.entered, added, left]

end State.Bracketed

/-- No step changes the number of frames, and none notes a push or a pop. -/
theorem Config.steps_bracketed (config : Config) : config.Steps State.Bracketed where
  remark _ _ plain := .note (Event.concernsFrame_of_isRemark plain) rfl rfl
  bind s _ _ := .still (s.stack.depth_modifyTop _) rfl
  bindRoot _ _ _ _ := .still rfl rfl
  record s _ _ := .still (s.stack.depth_modifyTop _) rfl
  returning s _ := .still (s.stack.depth_modifyTop _) rfl
  store _ _ _ _ _ _ := .still rfl rfl
  newArray s _ _ _ _ := .note rfl (s.stack.depth_modifyTop _) rfl
  newBlock _ _ _ _ _ := .note rfl rfl rfl
  dispatch _ _ _ _ _ _ _ _ := .note rfl rfl rfl
  free s id _ _ _ value _ _ :=
    .trans (t := { s with journal := s.journal.push (.dispatch id [value]) }) (.note rfl rfl rfl)
      (.note (Action.concernsFrame_releaseEvent s.heap value.address) rfl rfl)
  println _ _ := .still rfl rfl
  read _ := .still rfl rfl

end CellC
