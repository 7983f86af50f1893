import CellC.Proofs.Levels

/-!
# What is recorded on the way

Two ways of computing the same value may go through different expressions, and each expression
records its value in the frame. Apart from these records the two ways end alike if they work on the
same places of the heap.

## Main definitions

* `State.SameExcept`: states that differ in the records of some expressions at most
* `Action.MirroredBy`: an action ends like another one, up to such records
* `Action.finish`: an access to the heap, with changes of the frame before and after it
* `Config.EndAlike`: two expressions evaluate alike, up to such records

## Main results

* `Action.mirroredBy_finish`: what is recorded makes no difference to an access
-/

namespace CellC

/-! ### Equal up to records -/

/-- The frames differ in what is recorded for the given expressions at most. -/
structure Frame.SameExcept (exprs : List ExprId) (frame other : Frame) : Prop where
  vars : other.vars = frame.vars
  ret : other.ret = frame.ret
  arrays : other.arrays = frame.arrays
  recorded : ∀ expr, expr ∉ exprs → other.recorded expr = frame.recorded expr

namespace Frame.SameExcept

variable {exprs : List ExprId} {first second third : Frame}

theorem refl (exprs : List ExprId) (frame : Frame) : frame.SameExcept exprs frame :=
  ⟨rfl, rfl, rfl, fun _ _ => rfl⟩

theorem symm (h : first.SameExcept exprs second) : second.SameExcept exprs first :=
  ⟨h.vars.symm, h.ret.symm, h.arrays.symm, fun expr other => (h.recorded expr other).symm⟩

theorem trans (h : first.SameExcept exprs second) (h' : second.SameExcept exprs third) :
    first.SameExcept exprs third where
  vars := h'.vars.trans h.vars
  ret := h'.ret.trans h.ret
  arrays := h'.arrays.trans h.arrays
  recorded expr other := (h'.recorded expr other).trans (h.recorded expr other)

/-- One more record for a listed expression keeps the frames the same otherwise. -/
theorem record (h : first.SameExcept exprs second) {expr : ExprId} (member : expr ∈ exprs)
    (value : Value) : first.SameExcept exprs (second.record expr value) := by
  refine h.trans ⟨rfl, rfl, rfl, fun other outside => ?_⟩
  rw [Frame.recorded_record, if_neg]
  rintro rfl
  exact outside member

theorem mono {more : List ExprId} (h : first.SameExcept exprs second) (subset : exprs ⊆ more) :
    first.SameExcept more second :=
  ⟨h.vars, h.ret, h.arrays, fun expr other => h.recorded expr (mt (@subset expr) other)⟩

end Frame.SameExcept

/-- The states differ in what is recorded for the given expressions in the innermost activation at
most. -/
def State.SameExcept (exprs : List ExprId) (s t : State) : Prop :=
  ∃ frame, s.stack.top.SameExcept exprs frame ∧
    t = { s with stack := s.stack.modifyTop fun _ => frame }

namespace CallStack

theorem modifyTop_modifyTop (f g : Frame → Frame) (stack : CallStack) :
    (stack.modifyTop f).modifyTop g = stack.modifyTop (g ∘ f) := by
  obtain ⟨root, _ | ⟨frame, calls⟩⟩ := stack <;> rfl

/-- Only what an update does to the innermost frame counts. -/
theorem modifyTop_congr {f g : Frame → Frame} {stack : CallStack}
    (same : f stack.top = g stack.top) : stack.modifyTop f = stack.modifyTop g := by
  obtain ⟨root, _ | ⟨frame, calls⟩⟩ := stack
  · exact congrArg (CallStack.mk · []) same
  · exact congrArg (fun frame => CallStack.mk root (frame :: calls)) same

@[simp] theorem modifyTop_id (stack : CallStack) : stack.modifyTop id = stack := by
  obtain ⟨root, _ | ⟨frame, calls⟩⟩ := stack <;> rfl

end CallStack

theorem State.SameExcept.refl (exprs : List ExprId) (s : State) : s.SameExcept exprs s := by
  have same : s.stack.modifyTop (fun _ => s.stack.top) = s.stack.modifyTop id :=
    CallStack.modifyTop_congr rfl
  refine ⟨s.stack.top, .refl _ _, ?_⟩
  rw [same, CallStack.modifyTop_id]

theorem State.SameExcept.mono {exprs more : List ExprId} {s t : State} (h : s.SameExcept exprs t)
    (subset : exprs ⊆ more) : s.SameExcept more t := by
  obtain ⟨frame, same, rfl⟩ := h
  exact ⟨frame, same.mono subset, rfl⟩

theorem State.SameExcept.trans {exprs : List ExprId} {s t u : State} (h : s.SameExcept exprs t)
    (h' : t.SameExcept exprs u) : s.SameExcept exprs u := by
  obtain ⟨frame, same, rfl⟩ := h
  obtain ⟨frame', same', rfl⟩ := h'
  rw [CallStack.top_modifyTop] at same'
  refine ⟨frame', same.trans same', ?_⟩
  rw [CallStack.modifyTop_modifyTop]
  rfl

/-- One more record for a listed expression keeps the states the same otherwise. -/
theorem State.SameExcept.record {exprs : List ExprId} {s t : State} (h : s.SameExcept exprs t)
    {expr : ExprId} (member : expr ∈ exprs) (value : Value) :
    s.SameExcept exprs { t with stack := t.stack.modifyTop (·.record expr value) } := by
  obtain ⟨frame, same, rfl⟩ := h
  refine ⟨frame.record expr value, same.record member value, ?_⟩
  rw [CallStack.modifyTop_modifyTop]
  rfl

/-- Changes of the frame that differ in records at most lead to such states. -/
theorem State.sameExcept_modifyTop {exprs : List ExprId} {f g : Frame → Frame} {s : State}
    (same : (f s.stack.top).SameExcept exprs (g s.stack.top)) :
    State.SameExcept exprs { s with stack := s.stack.modifyTop f }
      { s with stack := s.stack.modifyTop g } := by
  have same' : s.stack.modifyTop g = (s.stack.modifyTop f).modifyTop fun _ => g s.stack.top := by
    rw [CallStack.modifyTop_modifyTop]
    exact CallStack.modifyTop_congr rfl
  exact ⟨g s.stack.top, by rwa [CallStack.top_modifyTop], by rw [same']⟩

/-! ### Actions that mirror each other -/

namespace Action

variable {α β : Type} {exprs : List ExprId}

/-- Wherever `action` returns, `other` returns with the same result, in a state that differs in what
is recorded for the given expressions at most. -/
def MirroredBy (exprs : List ExprId) (action other : Action α) : Prop :=
  ∀ s result s', action.Returns s result s' → ∃ t', other.Returns s result t' ∧
    s'.SameExcept exprs t'

/-- The differences arise in the second of two actions in sequence. -/
theorem Approximates.bind_mirroredBy {action other : Action α} {next next' : α → Action β}
    (first : Approximates action other) (rest : ∀ a, MirroredBy exprs (next a) (next' a)) :
    MirroredBy exprs (action >>= next) (other >>= next') := by
  intro s result s' run
  rw [returns_bind_iff] at run
  rcases run with ⟨a, t, run, run'⟩ | ⟨fault, rfl, run⟩
  · obtain ⟨t', ends, same⟩ := rest a _ _ _ run'
    exact ⟨t', returns_bind_iff.mpr (.inl ⟨a, t, first _ _ _ run, ends⟩), same⟩
  · exact ⟨s', returns_bind_iff.mpr (.inr ⟨fault, rfl, first _ _ _ run⟩), .refl _ _⟩

/-- The action always returns. What it returns and does depends on the heap and not on the frames,
and it changes nothing else. -/
def ActsOnHeap (action : Action α) : Prop :=
  ∀ s : State, ∃ (result : Except Fault α) (heap : Heap), ∀ stack : CallStack,
    action.Returns { s with stack } result { s with stack, heap }

/-- An access to the heap, with changes of the frame before it and after it has yielded a value. -/
def finish (before : Frame → Frame) (access : Action α) (after : α → Frame → Frame) :
    Action α := do
  modifyTop before
  let value ← access
  modifyTop (after value)
  pure value

@[simp] theorem modifyTop_id : (modifyTop id : Action Unit) = pure () := by
  funext s
  show EStateM.Result.ok () { s with stack := s.stack.modifyTop id } = _
  rw [CallStack.modifyTop_id]
  rfl

theorem finish_id (access : Action α) (after : α → Frame → Frame) :
    finish id access after = (do
      let value ← access
      modifyTop (after value)
      pure value) := by
  rw [finish, modifyTop_id, pure_bind]

/-- Two updates of the innermost frame in a row are one update. -/
theorem modifyTop_bind_modifyTop (f g : Frame → Frame) (next : Action α) :
    (modifyTop f >>= fun _ => modifyTop g >>= fun _ => next) =
      modifyTop (g ∘ f) >>= fun _ => next := by
  funext s
  show next { s with stack := (s.stack.modifyTop f).modifyTop g } = _
  rw [CallStack.modifyTop_modifyTop]
  rfl

/-- What is recorded makes no difference to an access: it has the same result, and the frames still
differ in records only. -/
theorem mirroredBy_finish {before before' : Frame → Frame} {after after' : α → Frame → Frame}
    {access : Action α} (acts : ActsOnHeap access)
    (start : ∀ frame, (before frame).SameExcept exprs (before' frame))
    (finished : ∀ value frame,
      (after value (before frame)).SameExcept exprs (after' value (before' frame))) :
    MirroredBy exprs (finish before access after) (finish before' access after') := by
  intro s result s' run
  obtain ⟨outcome, heap, returns⟩ := acts s
  have ends (before : Frame → Frame) (after : α → Frame → Frame) :
      (finish before access after).run s =
        match outcome with
        | .ok value => .ok value
          { s with heap, stack := s.stack.modifyTop (after value ∘ before) }
        | .error fault => .error (.fault fault)
          { s with heap, stack := s.stack.modifyTop before } := by
    have accessed := returns (s.stack.modifyTop before)
    unfold Returns at accessed
    unfold finish modifyTop
    rw [EStateM.run_bind, EStateM.run_modify]
    dsimp only
    rw [EStateM.run_bind, accessed]
    cases outcome with
    | ok value =>
      dsimp only
      rw [← CallStack.modifyTop_modifyTop]
      rfl
    | error fault => rfl
  unfold Returns at run ⊢
  rw [ends] at run ⊢
  cases outcome with
  | ok value =>
    cases result with
    | ok value' =>
      cases run
      exact ⟨_, rfl, State.sameExcept_modifyTop (s := { s with heap }) (finished value _)⟩
    | error fault => cases run
  | error fault =>
    cases result with
    | ok value => cases run
    | error fault' =>
      cases run
      exact ⟨_, rfl, State.sameExcept_modifyTop (s := { s with heap }) (start _)⟩

end Action

/-! ### Expressions that evaluate alike -/

namespace Config

/-- Whichever of the two expressions is evaluated, and from whatever state, the results are the same
and the states afterwards, up to what is recorded for the given expressions. -/
structure EndAlike (config : Config) (exprs : List ExprId) (a b : ExprId) : Prop where
  forth : ∀ s result s', config.Evaluates a s result s' →
    ∃ t', config.Evaluates b s result t' ∧ s'.SameExcept exprs t'
  back : ∀ s result t', config.Evaluates b s result t' →
    ∃ s', config.Evaluates a s result s' ∧ t'.SameExcept exprs s'

/-- The second expression may be nested one level deeper than the first. -/
theorem EndAlike.of_mirroredBy {config : Config} {exprs : List ExprId} {a b : ExprId}
    (forth : ∀ levels, Action.MirroredBy exprs (CellC.eval config (levels + 1) a)
      (CellC.eval config (levels + 2) b))
    (back : ∀ levels, Action.MirroredBy exprs (CellC.eval config (levels + 2) b)
      (CellC.eval config (levels + 2) a)) : config.EndAlike exprs a b where
  forth s result s' := by
    rintro ⟨levels, run⟩
    obtain ⟨t', run', same⟩ := forth levels _ _ _ (eval_mono (Nat.le_add_right _ 1) a _ _ _ run)
    exact ⟨t', ⟨_, run'⟩, same⟩
  back s result t' := by
    rintro ⟨levels, run⟩
    obtain ⟨s', run', same⟩ := back levels _ _ _ (eval_mono (Nat.le_add_right _ 2) b _ _ _ run)
    exact ⟨s', ⟨_, run'⟩, same⟩

end Config

end CellC
