import CellC.Proofs.Steps

/-!
# Stack discipline

Evaluation and execution work on the frame of the innermost activation. Whatever they do, and
however they end, the frames of the callers stay as they were, the file-scope frame changes in the
values of file-scope variables at most, and as many frames are there afterwards as before. A call
does not even change the frame from which it was made.

## Main definitions

* `Frame.FileScopeUpdate`: a change of file-scope variables only
* `CallStack.Undisturbed`: a change within the innermost activation

## Main results

* `stack_discipline`: evaluations, executions, calls and runs leave the other frames alone and never
  pop the file-scope frame
-/

namespace CellC

/-! ### Changes of frames -/

/-- The frame `after` differs from `before` at most in the values of file-scope variables. -/
structure Frame.FileScopeUpdate (setup : Setup) (before after : Frame) : Prop where
  value? : ∀ var, setup.hasFileScope var = false → after.value? var = before.value? var
  results : after.results = before.results
  ret : after.ret = before.ret
  arrays : after.arrays = before.arrays

namespace Frame.FileScopeUpdate

variable {setup : Setup} {first second third : Frame}

theorem refl (frame : Frame) : frame.FileScopeUpdate setup frame :=
  ⟨fun _ _ => rfl, rfl, rfl, rfl⟩

theorem trans (h₁ : first.FileScopeUpdate setup second) (h₂ : second.FileScopeUpdate setup third) :
    first.FileScopeUpdate setup third where
  value? var scope := (h₂.value? var scope).trans (h₁.value? var scope)
  results := h₂.results.trans h₁.results
  ret := h₂.ret.trans h₁.ret
  arrays := h₂.arrays.trans h₁.arrays

theorem bind {var : VarId} (scope : setup.hasFileScope var = true) (frame : Frame)
    (value : Value) : frame.FileScopeUpdate setup (frame.bind var value) where
  value? other outside := by
    rw [Frame.value?_bind, if_neg]
    rintro rfl
    exact absurd (scope.symm.trans outside) (by simp)
  results := rfl
  ret := rfl
  arrays := rfl

end Frame.FileScopeUpdate

/-- Nothing but the frame of the innermost activation changed, except that file-scope variables may
have new values. -/
structure CallStack.Undisturbed (setup : Setup) (before after : CallStack) : Prop where
  depth : after.depth = before.depth
  callers : after.calls.tail = before.calls.tail
  fileScope : before.calls ≠ [] → before.root.FileScopeUpdate setup after.root

namespace CallStack.Undisturbed

variable {setup : Setup} {first second third : CallStack}

theorem refl (stack : CallStack) : stack.Undisturbed setup stack :=
  ⟨rfl, rfl, fun _ => .refl _⟩

theorem length_calls (h : first.Undisturbed setup second) :
    second.calls.length = first.calls.length :=
  Nat.succ.inj h.depth

theorem calls_eq_nil_iff (h : first.Undisturbed setup second) :
    second.calls = [] ↔ first.calls = [] := by
  rw [← List.length_eq_zero_iff, h.length_calls, List.length_eq_zero_iff]

theorem trans (h₁ : first.Undisturbed setup second) (h₂ : second.Undisturbed setup third) :
    first.Undisturbed setup third where
  depth := h₂.depth.trans h₁.depth
  callers := h₂.callers.trans h₁.callers
  fileScope inside :=
    (h₁.fileScope inside).trans (h₂.fileScope (mt h₁.calls_eq_nil_iff.mp inside))

theorem modifyTop (f : Frame → Frame) (stack : CallStack) :
    stack.Undisturbed setup (stack.modifyTop f) := by
  -- Without calls the innermost frame is the file-scope frame, which may then change freely.
  obtain ⟨root, _ | ⟨frame, calls⟩⟩ := stack
  · exact ⟨rfl, rfl, fun inside => absurd rfl inside⟩
  · exact ⟨rfl, rfl, fun _ => .refl _⟩

theorem bindRoot {var : VarId} (scope : setup.hasFileScope var = true) (value : Value)
    (stack : CallStack) : stack.Undisturbed setup (stack.modifyRoot (·.bind var value)) :=
  ⟨rfl, rfl, fun _ => .bind scope _ value⟩

/-- After work within a new activation the frames of its caller are still there. -/
theorem calls_of_push (h : first.push.Undisturbed setup second) :
    ∃ frame, second.calls = frame :: first.calls := by
  have callers : second.calls.tail = first.calls := h.callers
  cases found : second.calls with
  | nil => exact absurd (h.calls_eq_nil_iff.mp found) (by simp [push])
  | cons frame calls =>
    rw [found, List.tail_cons] at callers
    exact ⟨frame, congrArg _ callers⟩

theorem fileScope_of_push (h : first.push.Undisturbed setup second) :
    first.root.FileScopeUpdate setup second.root :=
  h.fileScope (by simp [push])

end CallStack.Undisturbed

/-- What a call leaves behind: the same frames of calls, and new values of file-scope variables. -/
structure CallStack.Returned (setup : Setup) (before after : CallStack) : Prop where
  calls : after.calls = before.calls
  fileScope : before.root.FileScopeUpdate setup after.root

theorem CallStack.Returned.undisturbed {setup : Setup} {before after : CallStack}
    (h : before.Returned setup after) : before.Undisturbed setup after where
  depth := by unfold depth; rw [h.calls]
  callers := by rw [h.calls]
  fileScope _ := h.fileScope

/-! ### Runs -/

/-- No step disturbs the frames below, and the file-scope frame is never popped. -/
theorem Config.closed_undisturbed (config : Config) :
    config.Closed (fun s t => s.stack.Undisturbed config.setup t.stack)
      (fun fault s t => fault ≠ .noCall ∧ s.stack.Undisturbed config.setup t.stack) where
  remark _ _ _ := .refl _
  bind _ _ _ := .modifyTop _ _
  bindRoot _ _ value scope := .bindRoot scope value _
  record _ _ _ := .modifyTop _ _
  returning _ _ := .modifyTop _ _
  store _ _ _ _ _ _ := .refl _
  newArray _ _ _ _ _ := .modifyTop _ _
  newBlock _ _ _ _ _ := .refl _
  dispatch _ _ _ _ _ _ _ _ := .refl _
  free _ _ _ _ _ _ _ _ := .refl _
  println _ _ := .refl _
  read _ := .refl _
  refl _ := .refl _
  trans := .trans
  ready _ := .refl _
  fault _ other := ⟨other, .refl _⟩
  fault_trans h₁ h₂ := ⟨h₂.1, h₁.trans h₂.2⟩
  leave inside := by
    obtain ⟨frame, found⟩ := inside.calls_of_push
    exact ⟨frame, _, found, CallStack.Returned.undisturbed ⟨rfl, inside.fileScope_of_push⟩⟩
  abandon inside := by
    obtain ⟨frame, found⟩ := inside.2.calls_of_push
    exact ⟨frame, _, found, inside.1,
      CallStack.Returned.undisturbed ⟨rfl, inside.2.fileScope_of_push⟩⟩

/-- A relation that the steps keep, and activations if the frame is there that they pop, closed by
what is known of frames. -/
theorem Config.closed_of_steps {config : Config} {R : State → State → Prop}
    (steps : config.Steps R) (refl : ∀ s, R s s) (trans : ∀ {s t u}, R s t → R t u → R s u)
    (ready : ∀ s : State, R s { s with globalsReady := true })
    (leave : ∀ {s s'} frame calls, s'.stack.calls = frame :: calls → R s.entered s' →
      R s (Action.afterPop s' frame calls)) :
    config.Closed (fun s t => s.stack.Undisturbed config.setup t.stack ∧ R s t)
      fun _ s t => s.stack.Undisturbed config.setup t.stack ∧ R s t := by
  have frames := config.closed_undisturbed
  have left {s s' : State} (inside : s.entered.stack.Undisturbed config.setup s'.stack ∧
      R s.entered s') : ∃ frame calls, s'.stack.calls = frame :: calls ∧
        s.stack.Undisturbed config.setup (Action.afterPop s' frame calls).stack ∧
        R s (Action.afterPop s' frame calls) := by
    obtain ⟨frame, calls, found, undisturbed⟩ := frames.leave inside.1
    exact ⟨frame, calls, found, undisturbed, leave frame calls found inside.2⟩
  exact {
    frames.toSteps.and steps with
    refl := fun s => ⟨frames.refl s, refl s⟩
    trans := fun first second => ⟨frames.trans first.1 second.1, trans first.2 second.2⟩
    ready := fun s => ⟨frames.ready s, ready s⟩
    fault := fun s _ => ⟨frames.refl s, refl s⟩
    fault_trans := fun first second => ⟨frames.trans first.1 second.1, trans first.2 second.2⟩
    leave := left
    abandon := left }

/-- What storing, allocating and releasing keep of a heap, every step keeps. -/
theorem Config.closed_heap (config : Config) {P : Heap → Prop}
    (store : ∀ {heap address width cell after}, P heap →
      heap.store address width cell = .ok after → P after)
    (allocate : ∀ {heap size purpose base after}, P heap →
      heap.allocate size purpose = .ok (base, after) → P after)
    (remove : ∀ {heap} base, P heap → P (heap.remove base)) :
    config.Closed (fun s t => s.stack.Undisturbed config.setup t.stack ∧ (P s.heap → P t.heap))
      fun _ s t => s.stack.Undisturbed config.setup t.stack ∧ (P s.heap → P t.heap) := by
  have removeAll (bases : List Address) {heap : Heap} (kept : P heap) :
      P (heap.removeAll bases) := by
    induction bases generalizing heap with
    | nil => rwa [Heap.removeAll_nil]
    | cons base bases ih =>
      rw [Heap.removeAll_cons]
      exact ih (remove base kept)
  refine closed_of_steps ?_ (fun _ => id) (fun first second => second ∘ first) (fun _ => id)
    fun frame _ _ inside kept => removeAll frame.arrays (inside kept)
  exact {
    remark := fun _ _ _ => id
    bind := fun _ _ _ => id
    bindRoot := fun _ _ _ _ => id
    record := fun _ _ _ => id
    returning := fun _ _ => id
    store := fun _ _ _ _ _ stored kept => store kept stored
    newArray := fun _ _ _ _ made kept => allocate kept made
    newBlock := fun _ _ _ _ made kept => allocate kept made
    dispatch := fun _ _ _ _ _ _ _ _ => id
    free := fun _ _ _ _ _ value _ _ => remove value.address
    println := fun _ _ => id
    read := fun _ => id }

/-- The state after an activation, compared with the state before it. -/
theorem returned_afterPop {setup : Setup} {s s' : State} {frame : Frame} {calls : List Frame}
    (inside : s.entered.stack.Undisturbed setup s'.stack)
    (found : s'.stack.calls = frame :: calls) :
    s.stack.Returned setup (Action.afterPop s' frame calls).stack := by
  obtain ⟨other, same⟩ := inside.calls_of_push
  exact ⟨(List.cons.inj (found.symm.trans same)).2, inside.fileScope_of_push⟩

theorem Config.Outcome.and_ne_noCall {α : Type} {R : State → State → Prop} {s s' : State}
    {result : Except Fault α}
    (outcome : Outcome R (fun fault s t => fault ≠ .noCall ∧ R s t) s result s') :
    R s s' ∧ result ≠ .error .noCall := by
  cases result with
  | ok value => exact ⟨outcome, by simp⟩
  | error fault => exact ⟨outcome.2, by simpa using outcome.1⟩

/-- A call leaves all frames of calls alone, that of its caller included. -/
theorem Config.returned_of_functionCall {config : Config} {levels : Nat} {callee : FuncId}
    {values : List Value} {type : TypeId} {s s' : State} {result : Except Fault Value}
    (run : (config.functionCall (CellC.exec config levels) callee values type).Returns s result
      s') :
    s.stack.Returned config.setup s'.stack ∧ result ≠ .error .noCall :=
  Outcome.and_ne_noCall (R := fun s t => s.stack.Returned config.setup t.stack)
    (config.closed_undisturbed.functionCall_of (fun _ other => ⟨other, rfl, .refl _⟩)
      returned_afterPop (fun inside found => ⟨inside.1, returned_afterPop inside.2 found⟩) run)

/-- Whatever an evaluation, an execution, a run or a call does and however it ends: as many frames
are there afterwards as before; no frame changed but the innermost one, except that file-scope
variables may have new values; and a call changed not even that one. Never is the file-scope frame
to be popped. -/
theorem stack_discipline (config : Config) (levels : Nat) (s s' : State) :
    (∀ id result, (CellC.eval config levels id).Returns s result s' →
      s.stack.Undisturbed config.setup s'.stack ∧ result ≠ .error .noCall) ∧
    (∀ id result, (CellC.exec config levels id).Returns s result s' →
      s.stack.Undisturbed config.setup s'.stack ∧ result ≠ .error .noCall) ∧
    (∀ result, (config.run levels).Returns s result s' →
      s.stack.Undisturbed config.setup s'.stack ∧ result ≠ .error .noCall) ∧
    (∀ callee values type result,
      (config.functionCall (CellC.exec config levels) callee values type).Returns s result s' →
      s.stack.Undisturbed config.setup s'.stack ∧ s'.stack.calls = s.stack.calls ∧
        result ≠ .error .noCall) := by
  -- The first three are closed under steps. A call leaves more alone than the steps inside it do.
  refine ⟨fun id result run => ?_, fun id result run => ?_, fun result run => ?_,
    fun callee values type result run => ?_⟩
  · exact (config.closed_undisturbed.eval run).and_ne_noCall
  · exact (config.closed_undisturbed.exec run).and_ne_noCall
  · exact (config.closed_undisturbed.run run).and_ne_noCall
  · have returned := Config.returned_of_functionCall run
    exact ⟨returned.1.undisturbed, returned.1.calls, returned.2⟩

/-- A function that stores its argument in a file-scope variable and then divides it by zero, and an
entry point that calls it. -/
def storeAndFail : Config where
  program := {
    names := ⟨⟨#["", "g", "f", "p", "main"]⟩⟩
    vars := #[⟨⟨1⟩, .int, none⟩, ⟨⟨3⟩, .int, none⟩]
    exprs := #[⟨.ident ⟨0⟩, .int⟩, ⟨.ident ⟨1⟩, .int⟩, ⟨.binary .assign ⟨0⟩ ⟨1⟩, .int⟩,
      ⟨.intLit 0, .int⟩, ⟨.binary .div ⟨1⟩ ⟨3⟩, .int⟩, ⟨.intLit 7, .int⟩,
      ⟨.call ⟨0⟩ [⟨5⟩], .int⟩]
    stmts := #[.expr ⟨2⟩, .return (some ⟨4⟩), .compound [⟨0⟩, ⟨1⟩], .return (some ⟨6⟩)]
    funcs := #[⟨⟨2⟩, [⟨1⟩], .int, some ⟨2⟩⟩, ⟨⟨4⟩, [], .int, some ⟨3⟩⟩]
    topLevel := #[.variable ⟨0⟩, .function ⟨0⟩, .function ⟨1⟩] }
  setup := { globals := [⟨0⟩], entry := ⟨1⟩ }

/-- The call fails two activations deep, and the frame from which it was made is unchanged. -/
theorem stack_discipline_storeAndFail :
    ∃ s', (CellC.eval storeAndFail 9 ⟨6⟩).Returns { stack := { calls := [{}] } }
        (.error .divisionByZero) s' ∧
      CallStack.Undisturbed storeAndFail.setup { calls := [{}] } s'.stack ∧
      s'.stack.root.value? ⟨0⟩ = some (.int 7) :=
  ⟨_, rfl, ((stack_discipline storeAndFail 9 { stack := { calls := [{}] } } _).1 ⟨6⟩
    (.error .divisionByZero) rfl).1, rfl⟩

end CellC
