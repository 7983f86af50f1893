import CellC.Interpreter

/-!
# Actions that return

An action returns when it yields a value or goes wrong; a halt for any other reason is no return.
This module says when an action returns, and what each basic action of the machine makes of a state.

## Main definitions

* `Action.Returns`: an action takes one state to another with a value or with a fault
* `Interpreter.Reachable`: the interpreters that requests lead to

## Main results

* `Action.run_releaseAll`: releasing addresses one after the other takes their blocks from the heap
* `Config.run_activation`: what an activation does around the execution of its body
-/

namespace CellC

variable {α : Type}

namespace Action

/-- From `s` the action returns with `result` and leaves `s'` behind. -/
def Returns (action : Action α) (s : State) (result : Except Fault α) (s' : State) : Prop :=
  action.run s =
    match result with
    | .ok value => .ok value s'
    | .error fault => .error (.fault fault) s'

/-- An action returns in one way. -/
theorem Returns.unique {action : Action α} {s t t' : State} {result result' : Except Fault α}
    (run : action.Returns s result t) (run' : action.Returns s result' t') :
    result = result' ∧ t = t' := by
  unfold Returns at run run'
  rw [run] at run'
  cases result <;> cases result' <;> cases run' <;> exact ⟨rfl, rfl⟩

/-- Actions in sequence return if both do, or if the first one goes wrong. -/
theorem returns_bind_iff {β : Type} {action : Action α} {next : α → Action β} {s s' : State}
    {result : Except Fault β} :
    (action >>= next).Returns s result s' ↔
      (∃ a t, action.Returns s (.ok a) t ∧ (next a).Returns t result s') ∨
        ∃ fault, result = .error fault ∧ action.Returns s (.error fault) s' := by
  unfold Returns
  rw [EStateM.run_bind]
  cases action.run s with
  | ok a t =>
    constructor
    · intro run
      exact .inl ⟨a, t, rfl, run⟩
    · rintro (⟨b, u, same, run⟩ | ⟨fault, -, failed⟩)
      · cases same
        exact run
      · cases failed
  | error halt t =>
    cases result with
    | ok b => simp
    | error fault => simp

/-- Actions in sequence yield a value if both do. -/
theorem Returns.of_bind {β : Type} {action : Action α} {next : α → Action β} {s s' : State} {b : β}
    (run : (action >>= next).Returns s (.ok b) s') :
    ∃ a t, action.Returns s (.ok a) t ∧ (next a).Returns t (.ok b) s' := by
  obtain both | ⟨fault, same, -⟩ := returns_bind_iff.mp run
  · exact both
  · cases same

/-! ### Basic actions -/

@[simp] theorem run_fail (fault : Fault) (s : State) :
    (fail fault : Action α).run s = .error (.fault fault) s := rfl

/-- What depends on the state depends on the state at that moment. -/
theorem run_get_bind (next : State → Action α) (s : State) :
    (get >>= next).run s = (next s).run s := rfl

theorem run_discard (action : Action α) (s : State) :
    (discard action : Action Unit).run s =
      match action.run s with
      | .ok _ s' => .ok () s'
      | .error halt s' => .error halt s' := by
  cases h : action.run s <;>
    simp_all [Functor.discard, Functor.mapConst, EStateM.map, EStateM.run]

theorem Returns.of_discard {action : Action α} {s s' : State}
    (run : (discard action : Action Unit).Returns s (.ok ()) s') :
    ∃ a, action.Returns s (.ok a) s' := by
  unfold Returns at run
  rw [run_discard] at run
  cases outcome : action.run s with
  | ok a t =>
    rw [outcome] at run
    cases run
    exact ⟨a, outcome⟩
  | error halt t =>
    rw [outcome] at run
    cases run

theorem run_tryCatch (action : Action α) (handler : Halt → Action α) (s : State) :
    (tryCatch action handler).run s =
      match action.run s with
      | .ok value s' => .ok value s'
      | .error halt s' => (handler halt).run s' := by
  -- The state is not rolled back: the handler goes on from where the action stopped.
  show (EStateM.tryCatch action handler).run s = _
  unfold EStateM.tryCatch
  simp only [EStateM.run]
  cases action s <;> rfl

@[simp] theorem run_ofOption_some (a : α) (s : State) : (ofOption (some a)).run s = .ok a s := rfl

@[simp] theorem run_emit (event : Event) (s : State) :
    (emit event).run s = .ok () { s with journal := s.journal.push event } := rfl

@[simp] theorem run_println (line : String) (s : State) :
    (println line).run s = .ok () { s with printer := s.printer.println line } := rfl

theorem run_load (address : Address) (width : Nat) (s : State) :
    (load address width).run s =
      match s.heap.load address width with
      | .ok cell => .ok cell s
      | .error fault => .error (.fault fault) s := by
  simp only [load, EStateM.run_bind, EStateM.run_get]
  cases s.heap.load address width <;> rfl

theorem run_allocate (size : Cell) (purpose : Purpose) (s : State) :
    (allocate size purpose).run s =
      match s.heap.allocate size purpose with
      | .ok (base, heap) =>
        .ok base { s with
          heap
          journal := s.journal.push (.allocate base size.toInt.toNat purpose) }
      | .error fault => .error (.fault fault) s := by
  simp only [allocate, EStateM.run_bind, EStateM.run_get]
  cases s.heap.allocate size purpose <;> rfl

/-- What releasing an address adds to the journal. -/
def releaseEvent (heap : Heap) (address : Address) : Event :=
  match heap.blockAt? address with
  | some block => .release address block.size
  | none => .releaseMissing address

/-- Releasing an address takes the block that starts there from the heap, if there is one. -/
theorem run_release (address : Address) (s : State) :
    (release address).run s =
      .ok ((s.heap.blockAt? address).map Block.purpose)
        { s with
          heap := s.heap.remove address
          journal := s.journal.push (releaseEvent s.heap address) } := by
  simp only [release, EStateM.run_bind, EStateM.run_get, Heap.release, releaseEvent]
  cases h : s.heap.blockAt? address with
  | some block => rfl
  | none =>
    rw [Heap.remove_eq_self h]
    rfl

/-! ### Frames -/

/-- What releasing addresses one after the other adds to the journal. -/
def releaseEvents : Heap → List Address → List Event
  | _, [] => []
  | heap, base :: bases => releaseEvent heap base :: releaseEvents (heap.remove base) bases

/-- Releasing addresses one after the other takes the blocks that start there from the heap. -/
theorem run_releaseAll (bases : List Address) (s : State) :
    (releaseAll bases).run s =
      .ok () { s with
        heap := s.heap.removeAll bases
        journal := s.journal ++ (releaseEvents s.heap bases).toArray } := by
  induction bases generalizing s with
  | nil => simp [releaseAll, releaseEvents]
  | cons base bases ih =>
    simp only [releaseAll, EStateM.run_bind, run_discard, run_release, ih, releaseEvents,
      Heap.removeAll_cons]
    simp

/-- The state after a frame was taken off, with which `calls` were left. -/
def afterPop (s : State) (frame : Frame) (calls : List Frame) : State :=
  { s with
    stack := { s.stack with calls }
    heap := s.heap.removeAll frame.arrays
    journal := (s.journal ++ (releaseEvents s.heap frame.arrays).toArray).push
      (.pop (calls.length + 1) frame.ret) }

theorem run_popFrame_cons {s : State} {frame : Frame} {calls : List Frame}
    (h : s.stack.calls = frame :: calls) :
    popFrame.run s = .ok frame.ret (afterPop s frame calls) := by
  have popped : s.stack.pop? = some (frame, { s.stack with calls }) := by
    simp [CallStack.pop?, h]
  simp only [popFrame, EStateM.run_bind, EStateM.run_get, popped, EStateM.run_modify,
    run_releaseAll, run_emit, EStateM.run_pure]
  rfl

theorem run_popFrame_nil {s : State} (h : s.stack.calls = []) :
    popFrame.run s = .error (.fault .noCall) s := by
  have popped : s.stack.pop? = none := by simp [CallStack.pop?, h]
  simp only [popFrame, EStateM.run_bind, EStateM.run_get, popped, run_fail]

end Action

/-- The state in which a new activation begins. -/
def State.entered (s : State) : State :=
  { s with
    stack := s.stack.push
    journal := s.journal.push (.push (s.stack.depth + 1)) }

namespace Config

/-- The body of a function, run with its parameters bound to arguments. -/
def boundBody (config : Config) (exec : StmtId → Action Completion) (params : List VarId)
    (values : List Value) (body : StmtId) : Action Unit := do
  config.bindParams params values
  discard <| exec body

variable {config : Config} {exec : StmtId → Action Completion} {params : List VarId}
  {values : List Value} {body : StmtId}

/-- An activation pops its frame after the body, whether that yielded a value or went wrong. -/
theorem run_activation (s : State) :
    (config.activation exec params values body).run s =
      match (config.boundBody exec params values body).run s.entered with
      | .ok _ s' => Action.popFrame.run s'
      | .error (.fault fault) s' =>
        match Action.popFrame.run s' with
        | .ok _ s'' => .error (.fault fault) s''
        | .error halt s'' => .error halt s''
      | .error .dangling s' => .error .dangling s'
      | .error .exhausted s' => .error .exhausted s' := by
  have run : (config.activation exec params values body).run s =
      ((tryCatch (config.boundBody exec params values body) unwind) >>= fun _ =>
        Action.popFrame : Action Value).run s.entered := rfl
  -- The body alone decides how the activation goes on; only a fault of it is caught.
  rw [run, EStateM.run_bind, Action.run_tryCatch]
  cases (config.boundBody exec params values body).run s.entered with
  | ok _ s' => rfl
  | error halt s' =>
    cases halt with
    | dangling => rfl
    | exhausted => rfl
    | fault fault =>
      simp only [unwind, EStateM.run_bind, Action.run_discard]
      cases Action.popFrame.run s' <;> rfl

/-- If an activation returns, then its body did, and the frame was popped after that. -/
theorem returns_activation_iff {s s' : State} {result : Except Fault Value} :
    (config.activation exec params values body).Returns s result s' ↔
      (∃ t, (config.boundBody exec params values body).Returns s.entered (.ok ()) t ∧
        Action.popFrame.Returns t result s') ∨
      ∃ fault t, (config.boundBody exec params values body).Returns s.entered (.error fault) t ∧
        (Action.popFrame >>= fun _ => Action.fail fault).Returns t result s' := by
  have passed (fault : Fault) (t : State) :
      (Action.popFrame >>= fun _ => (Action.fail fault : Action Value)).run t =
        match Action.popFrame.run t with
        | .ok _ u => .error (.fault fault) u
        | .error halt u => .error halt u := by
    rw [EStateM.run_bind]
    cases Action.popFrame.run t <;> rfl
  unfold Action.Returns
  simp only [passed]
  rw [run_activation]
  cases (config.boundBody exec params values body).run s.entered with
  | ok a t => simp
  | error halt t =>
    cases halt with
    | fault fault =>
      constructor
      · exact fun left => .inr ⟨fault, t, rfl, left⟩
      · rintro (⟨u, ⟨⟩, -⟩ | ⟨other, u, ⟨⟩, left⟩)
        exact left
    | dangling | exhausted => cases result <;> simp

end Config

namespace Config

variable {config : Config} {levels : Nat} {id : ExprId} {expr : Expr} {s s' : State}

/-- An evaluation goes wrong if the rule for the expression does. -/
theorem returns_eval_error {fault : Fault}
    (found : config.program.expr? id = some expr)
    (failed : (config.expression (CellC.eval config levels)
      (config.functionCall (CellC.exec config levels)) id expr).Returns s (.error fault) s') :
    (CellC.eval config (levels + 1) id).Returns s (.error fault) s' := by
  unfold Action.Returns at failed ⊢
  rw [eval_succ, evaluation, found, EStateM.run_bind, Action.run_ofOption_some]
  dsimp only
  rw [EStateM.run_bind, failed]

/-- An evaluation yields what the rule for the expression yields, and records it. -/
theorem returns_eval_ok {v : Value}
    (found : config.program.expr? id = some expr)
    (returned : (config.expression (CellC.eval config levels)
      (config.functionCall (CellC.exec config levels)) id expr).Returns s (.ok v) s') :
    (CellC.eval config (levels + 1) id).Returns s (.ok v)
      { s' with stack := s'.stack.modifyTop (·.record id v) } := by
  unfold Action.Returns at returned ⊢
  rw [eval_succ, evaluation, found, EStateM.run_bind, Action.run_ofOption_some]
  dsimp only
  rw [EStateM.run_bind, returned]
  rfl

/-- A value that is recorded is yielded. -/
theorem returns_recorded {v w : Value} (returned : (do
      Action.record id v
      pure v : Action Value).Returns s (.ok w) s') :
    w = v ∧ s' = { s with stack := s.stack.modifyTop (·.record id v) } := by
  cases returned
  exact ⟨rfl, rfl⟩

/-- An evaluation has its value from the rule for the expression, and records it last. -/
theorem rule_of_returns_eval {v : Value}
    (returned : (CellC.eval config levels id).Returns s (.ok v) s') :
    ∃ below expr t, levels = below + 1 ∧ config.program.expr? id = some expr ∧
      (config.expression (CellC.eval config below)
        (config.functionCall (CellC.exec config below)) id expr).Returns s (.ok v) t ∧
      s' = { t with stack := t.stack.modifyTop (·.record id v) } := by
  cases levels with
  | zero => cases returned
  | succ below =>
    rw [eval_succ, evaluation] at returned
    cases found : config.program.expr? id with
    | none =>
      rw [found] at returned
      cases returned
    | some expr =>
      rw [found, Action.ofOption, pure_bind] at returned
      obtain ⟨w, t, ruled, rest⟩ := returned.of_bind
      obtain ⟨rfl, rfl⟩ := returns_recorded rest
      exact ⟨below, expr, t, rfl, rfl, ruled, rfl⟩

end Config

/-! ### Requests in sequence -/

/-- The interpreters of a program that runs, evaluations and executions lead to, one after the other
and each with a result or a fault, within any number of levels. -/
inductive Interpreter.Reachable (program : Program) (settings : Settings) : Interpreter → Prop
  | start {interpreter} :
    Interpreter.start program settings = .ok interpreter → Reachable program settings interpreter
  | run {interpreter levels result s'} : Reachable program settings interpreter →
    (interpreter.config.run levels).Returns interpreter.state result s' →
    Reachable program settings { interpreter with state := s' }
  | eval {interpreter levels id result s'} : Reachable program settings interpreter →
    (CellC.eval interpreter.config levels id).Returns interpreter.state result s' →
    Reachable program settings { interpreter with state := s' }
  | exec {interpreter levels id result s'} : Reachable program settings interpreter →
    (CellC.exec interpreter.config levels id).Returns interpreter.state result s' →
    Reachable program settings { interpreter with state := s' }

theorem Interpreter.state_of_start {program : Program} {settings : Settings}
    {interpreter : Interpreter}
    (started : Interpreter.start program settings = .ok interpreter) :
    interpreter.state = {
      input := settings.input
      printer := { channel := settings.channel } } := by
  unfold Interpreter.start at started
  cases surveyed : program.setup with
  | error fault => rw [surveyed] at started; cases started
  | ok setup => rw [surveyed] at started; cases started; rfl

theorem Interpreter.config_of_start {program : Program} {settings : Settings}
    {interpreter : Interpreter}
    (started : Interpreter.start program settings = .ok interpreter) :
    interpreter.config.program = program ∧ program.setup = .ok interpreter.config.setup := by
  unfold Interpreter.start at started
  cases surveyed : program.setup with
  | error fault => rw [surveyed] at started; cases started
  | ok setup => rw [surveyed] at started; cases started; exact ⟨rfl, rfl⟩

/-- An interpreter keeps the program for which it was started, and the facts about it. -/
theorem Interpreter.Reachable.config_eq {program : Program} {settings : Settings}
    {interpreter : Interpreter} (reachable : Reachable program settings interpreter) :
    interpreter.config.program = program ∧ program.setup = .ok interpreter.config.setup := by
  induction reachable with
  | start started => exact config_of_start started
  | run _ _ ih => exact ih
  | eval _ _ ih => exact ih
  | exec _ _ ih => exact ih

end CellC
