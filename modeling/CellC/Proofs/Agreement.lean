import CellC.Proofs.Parts
import CellC.Proofs.Recording

/-!
# Agreement

Two states agree if frames hold the same, up to what is recorded for expressions, and the rest of
the machine is equal, up to entries of the journal that do not count. From states that agree every
operation of the machine does the same. So one action follows another one, in returning whenever
the other one does and likewise, if it asks for actions that follow those that the other one asks
for.

## Main definitions

* `Frame.Congruence`: a relation between frames that hold the same up to records
* `State.Agrees`: states that agree, up to what counts
* `Action.Follows`: an action returns wherever another one does, with the same result
* `Config.Ends`: a request ends, at some number of levels

## Main results

* `Config.unaware_perform`: operations do the same in states that agree
* `Config.follows_evaluation`, `Config.follows_execution`, `Config.follows_iteration`,
  `Config.follows_functionCall`, `Config.follows_running`: rules follow each other as the meanings
  of their parts do
* `Config.follows_trees`, `Config.follows_carryOut`: states that agree lead a configuration to the
  same
-/

namespace CellC

open CellC.Action (Related Matching Approximates)

variable {α β : Type}

/-! ### Frames and states -/

/-- A relation between frames that hold the same values, up to those that are recorded for
expressions, and that stay related however they are changed. -/
structure Frame.Congruence (F : Frame → Frame → Prop) : Prop where
  refl : ∀ frame, F frame frame
  vars : ∀ {f g}, F f g → g.vars = f.vars
  ret : ∀ {f g}, F f g → g.ret = f.ret
  arrays : ∀ {f g}, F f g → g.arrays = f.arrays
  bind : ∀ {f g} var value, F f g → F (f.bind var value) (g.bind var value)
  record : ∀ {f g} expr value, F f g → F (f.record expr value) (g.record expr value)
  returning : ∀ {f g} value, F f g → F (f.returning value) (g.returning value)
  adopt : ∀ {f g} base, F f g → F (f.adopt base) (g.adopt base)

/-- Equality of frames is the narrowest congruence. -/
theorem Frame.congruence_eq : Frame.Congruence (· = ·) where
  refl _ := rfl
  vars same := same ▸ rfl
  ret same := same ▸ rfl
  arrays same := same ▸ rfl
  bind _ _ same := same ▸ rfl
  record _ _ same := same ▸ rfl
  returning _ same := same ▸ rfl
  adopt _ same := same ▸ rfl

/-- Frames that differ in what is recorded for some expressions only do so after any step. -/
theorem Frame.congruence_sameExcept (exprs : List ExprId) :
    Frame.Congruence (Frame.SameExcept exprs) where
  refl := .refl exprs
  vars h := h.vars
  ret h := h.ret
  arrays h := h.arrays
  bind var value h := ⟨by simp [Frame.bind, h.vars], h.ret, h.arrays, h.recorded⟩
  record expr value h := by
    refine ⟨h.vars, h.ret, h.arrays, fun other outside => ?_⟩
    rw [Frame.recorded_record, Frame.recorded_record, h.recorded other outside]
  returning _ h := ⟨h.vars, rfl, h.arrays, h.recorded⟩
  adopt base h := ⟨h.vars, h.ret, congrArg (· ++ [base]) h.arrays, h.recorded⟩

theorem forall₂_trans {R : α → α → Prop} (trans : ∀ a b c, R a b → R b c → R a c)
    {first second third : List α} (h : List.Forall₂ R first second)
    (h' : List.Forall₂ R second third) : List.Forall₂ R first third := by
  induction h generalizing third with
  | nil => exact h'
  | cons head _ ih =>
    cases h' with
    | cons head' rest' => exact .cons (trans _ _ _ head head') (ih rest')

/-- Stacks of equally many frames, related one by one. -/
structure CallStack.Agrees (F : Frame → Frame → Prop) (first second : CallStack) : Prop where
  root : F first.root second.root
  calls : List.Forall₂ F first.calls second.calls

namespace CallStack.Agrees

variable {F : Frame → Frame → Prop} {first second : CallStack} (h : first.Agrees F second)
include h

/-- Call stacks that agree are equally deep. -/
theorem depth : second.depth = first.depth := congrArg (· + 1) h.calls.length_eq.symm

theorem top : F first.top second.top := by
  obtain ⟨root, calls⟩ := first
  obtain ⟨root', calls'⟩ := second
  obtain ⟨roots, all⟩ := h
  cases all with
  | nil => exact roots
  | cons frame _ => exact frame

theorem trans (trans : ∀ f g k, F f g → F g k → F f k) {third : CallStack}
    (h' : second.Agrees F third) : first.Agrees F third :=
  ⟨trans _ _ _ h.root h'.root, forall₂_trans trans h.calls h'.calls⟩

/-- A change of the innermost frame that keeps frames in agreement keeps call stacks in agreement.
-/
theorem modifyTop {f g : Frame → Frame} (kept : F (f first.top) (g second.top)) :
    (first.modifyTop f).Agrees F (second.modifyTop g) := by
  obtain ⟨root, calls⟩ := first
  obtain ⟨root', calls'⟩ := second
  obtain ⟨roots, all⟩ := h
  cases all with
  | nil => exact ⟨kept, .nil⟩
  | cons _ rest => exact ⟨roots, .cons kept rest⟩

end CallStack.Agrees

/-- States whose frames are related and whose journals have the same entries, as far as they count.
Everything else is equal. -/
structure State.Agrees (F : Frame → Frame → Prop) (counts : Event → Bool) (s t : State) : Prop where
  stack : s.stack.Agrees F t.stack
  heap : t.heap = s.heap
  input : t.input = s.input
  printer : t.printer = s.printer
  globalsReady : t.globalsReady = s.globalsReady
  journal : t.journal.toList.filter counts = s.journal.toList.filter counts

namespace State.Agrees

variable {F : Frame → Frame → Prop} {counts : Event → Bool} {s t : State}

/-- Every state agrees with itself. -/
theorem refl (congruence : Frame.Congruence F) (s : State) : s.Agrees F counts s where
  stack := ⟨congruence.refl _, List.forall₂_same.mpr fun frame _ => congruence.refl frame⟩
  heap := rfl
  input := rfl
  printer := rfl
  globalsReady := rfl
  journal := rfl

variable (h : s.Agrees F counts t)
include h

theorem symm (symm : ∀ {f g}, F f g → F g f) : t.Agrees F counts s where
  stack := ⟨symm h.stack.root, (h.stack.calls.imp fun _ _ => symm).flip⟩
  heap := h.heap.symm
  input := h.input.symm
  printer := h.printer.symm
  globalsReady := h.globalsReady.symm
  journal := h.journal.symm

theorem trans (trans : ∀ f g k, F f g → F g k → F f k) {u : State}
    (h' : t.Agrees F counts u) : s.Agrees F counts u where
  stack := h.stack.trans trans h'.stack
  heap := h'.heap.trans h.heap
  input := h'.input.trans h.input
  printer := h'.printer.trans h.printer
  globalsReady := h'.globalsReady.trans h.globalsReady
  journal := h'.journal.trans h.journal

theorem modifyTop {f g : Frame → Frame} (kept : F (f s.stack.top) (g t.stack.top)) :
    State.Agrees F counts { s with stack := s.stack.modifyTop f }
      { t with stack := t.stack.modifyTop g } :=
  { h with stack := h.stack.modifyTop kept }

/-- An entry on both sides keeps states in agreement. -/
theorem emit (event : Event) :
    State.Agrees F counts { s with journal := s.journal.push event }
      { t with journal := t.journal.push event } :=
  { h with
    journal := by
      rw [Array.toList_push, Array.toList_push, List.filter_append, List.filter_append, h.journal] }

/-- An entry that does not count makes no difference. -/
theorem emit_right {event : Event} (ignored : counts event = false) :
    State.Agrees F counts s { t with journal := t.journal.push event } :=
  { h with journal := by simp [ignored, h.journal] }

/-- An entry that does not count may be made on one side alone. -/
theorem emit_left {event : Event} (ignored : counts event = false) :
    State.Agrees F counts { s with journal := s.journal.push event } t :=
  { h with journal := by simp [ignored, h.journal] }

/-- A new frame on both sides keeps states in agreement. -/
theorem entered (congruence : Frame.Congruence F) : s.entered.Agrees F counts t.entered := by
  have pushed : State.Agrees F counts { s with stack := s.stack.push }
      { t with stack := t.stack.push } :=
    { h with stack := ⟨h.stack.root, .cons (congruence.refl _) h.stack.calls⟩ }
  unfold State.entered
  rw [h.stack.depth]
  exact pushed.emit _

/-- Frames that are related own the same arrays, so the same blocks end with the frames. -/
theorem afterPop (congruence : Frame.Congruence F) {frame frame' : Frame}
    {calls calls' : List Frame} (top : F frame frame') (rest : List.Forall₂ F calls calls') :
    (Action.afterPop s frame calls).Agrees F counts (Action.afterPop t frame' calls') := by
  have released (events : List Event) :
      State.Agrees F counts
        { s with
          stack := { s.stack with calls }
          heap := s.heap.removeAll frame.arrays
          journal := s.journal ++ events.toArray }
        { t with
          stack := { t.stack with calls := calls' }
          heap := s.heap.removeAll frame.arrays
          journal := t.journal ++ events.toArray } :=
    { h with
      stack := ⟨h.stack.root, rest⟩
      heap := rfl
      journal := by simp [h.journal] }
  unfold Action.afterPop
  rw [h.heap, congruence.arrays top, congruence.ret top, ← rest.length_eq]
  exact (released _).emit _

end State.Agrees

/-! ### Operations -/

namespace Config

/-- The action does the same in states that agree. -/
abbrev Unaware (F : Frame → Frame → Prop) (counts : Event → Bool) (action : Action α) : Prop :=
  Related (State.Agrees F counts) (fun _ => State.Agrees F counts) (· = ·) action action

variable {config : Config} {F : Frame → Frame → Prop} {counts : Event → Bool}

theorem unaware_fail (fault : Fault) : Unaware F counts (Action.fail fault : Action α) :=
  .fail fun _ _ start => start

theorem unaware_emit (event : Event) : Unaware F counts (Action.emit event) :=
  fun _ _ h => .ok rfl (h.emit event)

/-- A change of the innermost frame that respects the congruence is unaware of what it leaves open.
-/
theorem unaware_modifyTop {f : Frame → Frame} (kept : ∀ a b, F a b → F (f a) (f b)) :
    Unaware F counts (Action.modifyTop f) :=
  fun _ _ h => .ok rfl (h.modifyTop (kept _ _ h.stack.top))

theorem unaware_println (line : String) : Unaware F counts (Action.println line) :=
  fun _ _ h => .ok rfl { h with printer := congrArg (·.println line) h.printer }

/-- Reading an integer depends on the input alone. -/
theorem unaware_readInteger : Unaware F counts Action.readInteger := by
  intro s t h
  have read : State.Agrees F counts { s with input := s.input.read.2 }
      { t with input := s.input.read.2 } := { h with input := rfl }
  unfold Action.readInteger
  rw [EStateM.run_bind, EStateM.run_bind, EStateM.run_modifyGet, EStateM.run_modifyGet]
  dsimp only
  rw [h.input]
  cases s.input.read.1 with
  | value n => exact .ok rfl read
  | unavailable => exact .ok rfl read
  | malformed word error => exact .ok rfl (read.emit _)

/-- Loading from memory depends on no frame. -/
theorem unaware_loadAt (address : Address) (type : TypeId) :
    Unaware F counts (config.loadAt address type) := by
  unfold loadAt
  split
  · exact .pure rfl
  refine Related.bind_eq (fun s t h => ?_) fun cell => .pure rfl
  rw [Action.run_load, Action.run_load, h.heap]
  cases s.heap.load address (config.types.width type) with
  | ok cell => exact .ok rfl h
  | error fault => exact .fault h

theorem unaware_storeAt (address : Address) (type : TypeId) (value : Value) :
    Unaware F counts (config.storeAt address type value) := by
  intro s t h
  unfold storeAt
  rw [Action.run_store, Action.run_store, h.heap]
  cases s.heap.store address (config.types.width type) value.cell with
  | ok heap => exact .ok rfl { h with heap := rfl }
  | error fault => exact .fault h

theorem unaware_allocate (size : Cell) (purpose : Purpose) :
    Unaware F counts (Action.allocate size purpose) := by
  intro s t h
  rw [Action.run_allocate, Action.run_allocate, h.heap]
  cases s.heap.allocate size purpose with
  | ok made =>
    have placed : State.Agrees F counts { s with heap := made.2 } { t with heap := made.2 } :=
      { h with heap := rfl }
    exact .ok rfl (placed.emit _)
  | error fault => exact .fault h

theorem unaware_release (address : Address) : Unaware F counts (Action.release address) := by
  intro s t h
  have released : State.Agrees F counts { s with heap := s.heap.remove address }
      { t with heap := s.heap.remove address } := { h with heap := rfl }
  rw [Action.run_release, Action.run_release, h.heap]
  exact .ok rfl (released.emit _)

/-- Only the number of frames counts for the depth limit. -/
theorem unaware_checkDepth : Unaware F counts config.checkDepth := by
  intro s t h
  unfold checkDepth
  cases config.depthLimit with
  | none => exact .ok rfl h
  | some limit =>
    dsimp only
    rw [Action.run_get_bind, Action.run_get_bind, h.stack.depth]
    split
    · exact .fault h
    · exact .ok rfl h

section Frames

variable (congruence : Frame.Congruence F)
include congruence

/-- Related frames bind the same variables to the same values. -/
theorem visibleValue?_of_agrees {first second : CallStack} (h : first.Agrees F second)
    (var : VarId) : config.visibleValue? second var = config.visibleValue? first var := by
  unfold visibleValue? Frame.value?
  rw [congruence.vars h.top, congruence.vars h.root]

/-- The value of a variable depends on bindings, on which frames agree. -/
theorem unaware_varValue (var : VarId) : Unaware F counts (config.varValue var) := by
  intro s t h
  unfold varValue
  rw [Action.run_get_bind, Action.run_get_bind, visibleValue?_of_agrees congruence h.stack]
  split
  · exact .ok rfl h
  · exact .fault h

theorem unaware_assignVar (var : VarId) (value : Value) :
    Unaware F counts (config.assignVar var value) := by
  intro s t h
  have binds : t.stack.top.binds var = s.stack.top.binds var := by
    unfold Frame.binds
    rw [congruence.vars h.stack.top]
  unfold assignVar
  rw [Action.run_get_bind, Action.run_get_bind, binds]
  split
  · exact .ok rfl { h with stack := ⟨congruence.bind var value h.stack.root, h.stack.calls⟩ }
  · exact .ok rfl (h.modifyTop (congruence.bind var value h.stack.top))

/-- Popping a frame yields a value to return and ends arrays, on all of which frames agree. -/
theorem unaware_popFrame : Unaware F counts Action.popFrame := by
  intro s t h
  have all := h.stack.calls
  cases found : s.stack.calls with
  | nil =>
    rw [found, List.forall₂_nil_left_iff] at all
    rw [Action.run_popFrame_nil found, Action.run_popFrame_nil all]
    exact .fault h
  | cons frame calls =>
    rw [found] at all
    obtain ⟨frame', calls', top, rest, found'⟩ := List.forall₂_cons_left_iff.mp all
    rw [Action.run_popFrame_cons found, Action.run_popFrame_cons found']
    exact .ok (congruence.ret top).symm (h.afterPop congruence top rest)

/-- Operations do the same in states that agree. -/
theorem unaware_perform (operation : Operation) :
    Unaware F counts (config.perform operation) := by
  cases operation with
  | expr | stmt | var | func => exact .ofOption _
  | fail fault => exact unaware_fail fault
  | compute outcome => exact .ofExcept fun _ _ _ _ start => start
  | note event => exact unaware_emit event
  | varValue var => exact unaware_varValue congruence var
  | assignVar var value => exact unaware_assignVar congruence var value
  | bind var value => exact unaware_modifyTop fun _ _ => congruence.bind var value
  | record expr value => exact unaware_modifyTop fun _ _ => congruence.record expr value
  | returning value => exact unaware_modifyTop fun _ _ => congruence.returning value
  | load address type => exact unaware_loadAt address type
  | store address type value => exact unaware_storeAt address type value
  | newArray size =>
    exact (unaware_allocate size .array).bind_eq fun base =>
      (unaware_modifyTop fun _ _ => congruence.adopt base).bind_eq fun _ => .pure rfl
  | allocate size => exact unaware_allocate size .explicit
  | release address => exact unaware_release address
  | println line => exact unaware_println line
  | read => exact unaware_readInteger
  | checkDepth => exact unaware_checkDepth
  | globalsReady => exact fun s t h => .ok h.globalsReady.symm h
  | setGlobalsReady => exact fun s t h => .ok rfl { h with globalsReady := rfl }

end Frames

end Config

/-! ### Actions that follow one another -/

/-- From states that agree, the second action returns whenever the first one does, with the same
result and in states that agree again. -/
def Action.Follows (F : Frame → Frame → Prop) (counts : Event → Bool) (action other : Action α) :
    Prop :=
  ∀ ⦃s t⦄, s.Agrees F counts t → ∀ ⦃result s'⦄, action.Returns s result s' →
    ∃ t', other.Returns t result t' ∧ s'.Agrees F counts t'

namespace Action.Follows

variable {F : Frame → Frame → Prop} {counts : Event → Bool} {action other : Action α}
  {next next' : α → Action β}

/-- What corresponds step by step follows. -/
theorem of_related {action other : Action α} (related : Related (State.Agrees F counts)
    (fun _ => State.Agrees F counts) (· = ·) action other) : Follows F counts action other := by
  intro s t start result s' returned
  obtain ⟨result', t', returned', matched⟩ := related.returns start returned
  cases result with
  | ok a =>
    cases result' with
    | ok b =>
      obtain ⟨rfl, agree⟩ := matched
      exact ⟨t', returned', agree⟩
    | error fault => cases matched
  | error fault =>
    cases result' with
    | ok b => cases matched
    | error fault' =>
      obtain ⟨rfl, agree⟩ := matched
      exact ⟨t', returned', agree⟩

protected theorem pure (a : α) : Follows F counts (pure a) (pure a) := of_related (.pure rfl)

/-- Nothing returns without levels. -/
theorem throw_exhausted (other : Action α) : Follows F counts (throw .exhausted) other := by
  intro s t start result s' returned
  cases result <;> cases returned

protected theorem bind (first : Follows F counts action other)
    (rest : ∀ a, Follows F counts (next a) (next' a)) :
    Follows F counts (action >>= next) (other >>= next') := by
  intro s t start result s' returned
  obtain ⟨a, u, returned, following⟩ | ⟨fault, rfl, failed⟩ := returns_bind_iff.mp returned
  · obtain ⟨v, returned', agree⟩ := first start returned
    obtain ⟨t', following', agree⟩ := rest a agree following
    exact ⟨t', returns_bind_iff.mpr (.inl ⟨a, v, returned', following'⟩), agree⟩
  · obtain ⟨t', failed', agree⟩ := first start failed
    exact ⟨t', returns_bind_iff.mpr (.inr ⟨fault, rfl, failed'⟩), agree⟩

protected theorem discard (h : Follows F counts action other) :
    Follows F counts (discard action : Action Unit) (discard other) := by
  have as_bind (action : Action α) :
      (discard action : Action Unit) = action >>= fun _ => Pure.pure () :=
    (bind_pure _).symm.trans (discard_bind action (Pure.pure ()))
  rw [as_bind, as_bind]
  exact h.bind fun _ => .pure ()

/-- What follows an action also follows it with more levels. -/
theorem approximates {more : Action α} (h : Follows F counts action other)
    (approximates : Approximates other more) : Follows F counts action more := by
  intro s t start result s' returned
  obtain ⟨t', returned', agree⟩ := h start returned
  exact ⟨t', approximates _ _ _ returned', agree⟩

/-- What follows an action also follows it with fewer levels. -/
theorem of_approximates {less : Action α} (approximates : Approximates less action)
    (h : Follows F counts action other) : Follows F counts less other :=
  fun _ _ start _ _ returned => h start (approximates _ _ _ returned)

end Action.Follows

/-! ### Rules that follow one another -/

namespace Config

open CellC.Action (Follows)

variable {config : Config} {F : Frame → Frame → Prop} {counts : Event → Bool}
  {eval eval' : ExprId → Action Value} {exec exec' : StmtId → Action Completion}
  {loop loop' : ExprId → StmtId → Option ExprId → Action Completion}
  {invoke invoke' : FuncId → List Value → TypeId → Action Value} {run run' : Action Value}

variable (config) in
/-- No script asks for a run. -/
theorem follows_script (congruence : Frame.Congruence F)
    (heval : ∀ id, Follows F counts (eval id) (eval' id))
    (hexec : ∀ id, Follows F counts (exec id) (exec' id))
    (hloop : ∀ cond body step, Follows F counts (loop cond body step) (loop' cond body step))
    (hinvoke : ∀ callee values type,
      Follows F counts (invoke callee values type) (invoke' callee values type))
    (script : Script α) :
    Follows F counts (script.run (config.answer eval exec loop invoke (throw .exhausted)))
      (script.run (config.answer eval' exec' loop' invoke' (throw .exhausted))) := by
  refine script.asks_true.related (R := Follows F counts) .pure .bind fun request _ => ?_
  cases request with
  | operate operation => exact .of_related (unaware_perform congruence operation)
  | evaluate id => exact heval id
  | execute id => exact hexec id
  | iterate cond body step => exact hloop cond body step
  | invoke callee values type => exact hinvoke callee values type
  | run => exact .throw_exhausted _

section Rules

variable (congruence : Frame.Congruence F)
  (heval : ∀ id, Follows F counts (eval id) (eval' id))
  (hexec : ∀ id, Follows F counts (exec id) (exec' id))
  (hloop : ∀ cond body step, Follows F counts (loop cond body step) (loop' cond body step))
  (hinvoke : ∀ callee values type,
    Follows F counts (invoke callee values type) (invoke' callee values type))
include congruence

include heval hinvoke in
/-- An evaluation follows another one if its parts do. -/
theorem follows_evaluation (id : ExprId) :
    Follows F counts (config.evaluation eval invoke id) (config.evaluation eval' invoke' id) := by
  have both := follows_script config congruence heval (fun _ => .throw_exhausted (throw .exhausted))
    (fun _ _ _ => .throw_exhausted (throw .exhausted)) hinvoke (config.evaluationScript id)
  rwa [run_evaluationScript, run_evaluationScript] at both

include heval hinvoke in
theorem follows_running :
    Follows F counts (config.running eval invoke) (config.running eval' invoke') := by
  have both := follows_script config congruence heval (fun _ => .throw_exhausted (throw .exhausted))
    (fun _ _ _ => .throw_exhausted (throw .exhausted)) hinvoke config.runScript
  rwa [run_runScript, run_runScript] at both

include heval hexec hloop in
/-- An execution follows another one if its parts do. -/
theorem follows_execution (id : StmtId) :
    Follows F counts (config.execution eval exec loop id)
      (config.execution eval' exec' loop' id) := by
  have both := follows_script config congruence heval hexec hloop
    (fun _ _ _ => .throw_exhausted (throw .exhausted)) (config.executionScript id)
  rwa [run_executionScript, run_executionScript] at both

omit congruence in
include heval hexec hloop in
theorem follows_iteration (cond : ExprId) (body : StmtId) (step : Option ExprId) :
    Follows F counts (Config.iteration eval exec loop cond body step)
      (Config.iteration eval' exec' loop' cond body step) := by
  refine (heval cond).bind fun value => ?_
  split
  · refine (hexec body).bind fun completion => ?_
    cases completion with
    | returned value => exact .pure _
    | completed =>
      cases step with
      | some expr => exact (heval expr).discard.bind fun _ => hloop cond body _
      | none => exact hloop cond body none
  · exact .pure _

/-- The frame is pushed and popped alike, whether the body yields a value or goes wrong. -/
theorem follows_activation {params : List VarId} {values : List Value} {body : StmtId}
    (bodies : Follows F counts (config.boundBody exec params values body)
      (config.boundBody exec' params values body)) :
    Follows F counts (config.activation exec params values body)
      (config.activation exec' params values body) := by
  have popped : Follows F counts Action.popFrame Action.popFrame :=
    .of_related (unaware_popFrame congruence)
  intro s t start result s' returned
  obtain ⟨u, ended, left⟩ | ⟨fault, u, failed, left⟩ := returns_activation_iff.mp returned
  · obtain ⟨v, ended', agree⟩ := bodies (start.entered congruence) ended
    obtain ⟨t', left', agree⟩ := popped agree left
    exact ⟨t', returns_activation_iff.mpr (.inl ⟨v, ended', left'⟩), agree⟩
  · have abandoned := popped.bind fun _ =>
      Follows.of_related (unaware_fail fault : Unaware F counts (Action.fail fault : Action Value))
    obtain ⟨v, failed', agree⟩ := bodies (start.entered congruence) failed
    obtain ⟨t', left', agree⟩ := abandoned agree left
    exact ⟨t', returns_activation_iff.mpr (.inr ⟨fault, v, failed', left'⟩), agree⟩

include hexec in
/-- A call follows another one if executions do. -/
theorem follows_functionCall (callee : FuncId) (values : List Value) (type : TypeId) :
    Follows F counts (config.functionCall exec callee values type)
      (config.functionCall exec' callee values type) := by
  have scripts {γ : Type} (script : Script γ) := follows_script config congruence
    (fun _ => .throw_exhausted (throw .exhausted)) hexec
    (fun _ _ _ => .throw_exhausted (throw .exhausted))
    (fun _ _ _ => .throw_exhausted (throw .exhausted)) script
  rw [config.functionCall_eq_answer, config.functionCall_eq_answer]
  refine (scripts (config.admissionScript callee values)).bind fun (params, body) => ?_
  have bodies := scripts (config.bodyScript params values body)
  rw [run_bodyScript, run_bodyScript] at bodies
  exact (follows_activation congruence bodies).bind fun ret => .pure _

include heval hexec hloop in
/-- On one more level, trees still follow each other. -/
theorem follows_rules :
    (∀ id, Follows F counts (config.evaluation eval (config.functionCall exec) id)
      (config.evaluation eval' (config.functionCall exec') id)) ∧
    (∀ id, Follows F counts (config.execution eval exec loop id)
      (config.execution eval' exec' loop' id)) ∧
    (∀ cond body step, Follows F counts (Config.iteration eval exec loop cond body step)
      (Config.iteration eval' exec' loop' cond body step)) :=
  ⟨follows_evaluation congruence heval (follows_functionCall congruence hexec),
    follows_execution congruence heval hexec hloop, follows_iteration heval hexec hloop⟩

end Rules

/-- States that agree lead a configuration to the same. -/
theorem follows_trees (congruence : Frame.Congruence F) (config : Config) (levels : Nat) :
    (∀ id, Follows F counts (CellC.eval config levels id) (CellC.eval config levels id)) ∧
    (∀ id, Follows F counts (CellC.exec config levels id) (CellC.exec config levels id)) ∧
    (∀ cond body step, Follows F counts (CellC.loop config levels cond body step)
      (CellC.loop config levels cond body step)) := by
  induction levels with
  | zero =>
    refine ⟨fun id => ?_, fun id => ?_, fun cond body step => ?_⟩ <;>
      exact .throw_exhausted _
  | succ levels ih => exact follows_rules congruence ih.1 ih.2.1 ih.2.2

/-- States that agree lead every request to the same. -/
theorem follows_carryOut (congruence : Frame.Congruence F) (config : Config) (levels : Nat)
    (request : Request) :
    Follows F counts (config.carryOut levels request) (config.carryOut levels request) := by
  obtain ⟨heval, hexec, hloop⟩ : _ ∧ _ ∧ _ := follows_trees congruence config levels
  have hinvoke (callee : FuncId) (values : List Value) (type : TypeId) :
      Follows F counts (config.functionCall (CellC.exec config levels) callee values type)
        (config.functionCall (CellC.exec config levels) callee values type) :=
    follows_functionCall congruence hexec callee values type
  cases request with
  | operate operation => exact .of_related (unaware_perform congruence operation)
  | evaluate id => exact heval id
  | execute id => exact hexec id
  | iterate cond body step => exact hloop cond body step
  | invoke callee values type => exact hinvoke callee values type
  | run => exact follows_running congruence heval hinvoke

/-- From `s` the request ends with `result` in `s'`, at some number of levels and hence at any
greater one. -/
def Ends (config : Config) (request : Request) (s : State) (result : Except Fault request.Answer)
    (s' : State) : Prop :=
  ∃ levels, (config.carryOut levels request).Returns s result s'

end Config

end CellC
