import CellC.Proofs.Steps

/-!
# Watched runs

What is true whenever an evaluation, an execution or a call begins or returns, however deep inside a
run, is stated here about a run that is watched. A watched run raises an alarm as soon as one of
them begins in a state, or returns with a change of the state, to which the watch objects. If the
watch has nothing to object to, the watched run is the run itself.

## Main definitions

* `Watch`: what has to hold when something begins and when it returns
* `Config.watchedEval`, `Config.watchedExec`, `Config.watchedRun`: evaluations, executions and runs
  with a watch on each of their parts
* `Config.Unalarmed`: requests during which no alarm is raised

## Main results

* `Config.Closed.unalarmed`: a watch has nothing to object to if a closed relation satisfies it
-/

namespace CellC

open CellC.Action (Related Matching)

variable {α : Type}

/-- What has to hold when evaluations, executions and calls of functions begin and return. -/
structure Watch where
  /-- When any of them begins. -/
  entered : State → Prop
  /-- When an evaluation or execution returns, of the states before and after. -/
  returned : State → State → Prop
  /-- When a call returns, of the states before and after. -/
  callReturned : State → State → Prop

/-- How an action ends: it returns with a result and leaves a state behind, or it halts. -/
def Action.outcome (action : Action α) (s : State) : Except Halt (Except Fault α × State) :=
  match action.run s with
  | .ok value s' => .ok (.ok value, s')
  | .error (.fault fault) s' => .ok (.error fault, s')
  | .error halt _ => .error halt

theorem Action.Returns.outcome {action : Action α} {s s' : State} {result : Except Fault α}
    (run : action.Returns s result s') : action.outcome s = .ok (result, s') := by
  unfold Action.Returns at run
  unfold Action.outcome
  rw [run]
  cases result <;> rfl

open Classical in
/-- The action, with an alarm in place of its result if it begins in a state without `entered`, or
returns to a state that is not related to the one before it by `returned`. -/
noncomputable def Action.watched (alarm : Halt) (entered : State → Prop)
    (returned : State → State → Prop) (action : Action α) : Action α := fun s =>
  if entered s then
    match action.run s with
    | .ok value s' => if returned s s' then .ok value s' else .error alarm s'
    | .error (.fault fault) s' =>
      if returned s s' then .error (.fault fault) s' else .error alarm s'
    | .error halt s' => .error halt s'
  else .error alarm s

namespace Config

section Definitions

variable (config : Config) (watch : Watch) (alarm : Halt)

/-- A call of a function under a watch, with a body that is executed by `exec`. -/
noncomputable def watchedCall (exec : StmtId → Action Completion) (callee : FuncId)
    (values : List Value) (type : TypeId) : Action Value :=
  Action.watched alarm watch.entered watch.callReturned
    (config.functionCall exec callee values type)

mutual

/-- The value of an expression, with a watch on every evaluation, execution and call. -/
noncomputable def watchedEval : Nat → ExprId → Action Value
  | 0, _ => throw .exhausted
  | levels + 1, id =>
    Action.watched alarm watch.entered watch.returned
      (config.evaluation (watchedEval levels) (config.watchedCall watch alarm (watchedExec levels))
        id)

/-- The execution of a statement, with a watch on every evaluation, execution and call. -/
noncomputable def watchedExec : Nat → StmtId → Action Completion
  | 0, _ => throw .exhausted
  | levels + 1, id =>
    Action.watched alarm watch.entered watch.returned
      (config.execution (watchedEval levels) (watchedExec levels) (watchedLoop levels) id)

/-- The iterations of a loop, with a watch on every evaluation, execution and call. -/
noncomputable def watchedLoop : Nat → ExprId → StmtId → Option ExprId → Action Completion
  | 0, _, _, _ => throw .exhausted
  | levels + 1, cond, body, step =>
    iteration (watchedEval levels) (watchedExec levels) (watchedLoop levels) cond body step

end

/-- A run with a watch on every evaluation, execution and call. -/
noncomputable def watchedRun (levels : Nat) : Action Value :=
  config.running (config.watchedEval watch alarm levels)
    (config.watchedCall watch alarm (config.watchedExec watch alarm levels))

/-- Whatever is requested in the state `s`, the watch never objects: with any alarm at all, and at
any number of levels, the watched request ends as the request itself does. -/
structure Unalarmed (s : State) : Prop where
  eval : ∀ alarm levels id,
    (config.watchedEval watch alarm levels id).outcome s = (CellC.eval config levels id).outcome s
  exec : ∀ alarm levels id,
    (config.watchedExec watch alarm levels id).outcome s = (CellC.exec config levels id).outcome s
  run : ∀ alarm levels,
    (config.watchedRun watch alarm levels).outcome s = (config.run levels).outcome s

end Definitions

end Config

/-! ### Watches without objections -/

/-- An action is related to its watched form if the watch has nothing to object to. -/
theorem Action.related_watched {P : State → Prop} {Q : Fault → State → Prop} {alarm : Halt}
    {V : α → α → Prop} {entered : State → Prop} {returned : State → State → Prop}
    {action other : Action α}
    (related : Related (fun s t => s = t ∧ P s) (fun fault s t => s = t ∧ Q fault s) V action other)
    (enters : ∀ s, P s → entered s)
    (returns : ∀ s result s', P s → action.Returns s result s' → returned s s') :
    Related (fun s t => s = t ∧ P s) (fun fault s t => s = t ∧ Q fault s) V action
      (watched alarm entered returned other) := by
  rintro s _ ⟨rfl, start⟩
  have matching := related (s := s) ⟨rfl, start⟩
  show Matching _ _ _ _ (watched alarm entered returned other s)
  unfold watched
  rw [if_pos (enters s start)]
  cases outcome : action.run s with
  | ok value s' =>
    have back := returns s (.ok value) s' start outcome
    rw [outcome] at matching
    generalize other.run s = answer at matching
    cases matching with
    | ok same states =>
      obtain ⟨rfl, kept⟩ := states
      dsimp only
      rw [if_pos back]
      exact .ok same ⟨rfl, kept⟩
  | error halt s' =>
    rw [outcome] at matching
    generalize other.run s = answer at matching
    cases matching with
    | @fault fault _ _ states =>
      obtain ⟨rfl, kept⟩ := states
      have back := returns s (.error fault) s' start outcome
      dsimp only
      rw [if_pos back]
      exact .fault ⟨rfl, kept⟩
    | dangling => exact .dangling
    | exhausted => exact .exhausted

/-- Actions that are related in equal states end alike. -/
theorem Action.Related.outcome_eq {P : State → Prop} {Q : Fault → State → Prop} {V : α → α → Prop}
    {action other : Action α} {s : State}
    (related : Related (fun s t => s = t ∧ P s) (fun fault s t => s = t ∧ Q fault s) V action other)
    (same : ∀ v w, V v w → v = w) (start : P s) : other.outcome s = action.outcome s := by
  have matching := related (s := s) ⟨rfl, start⟩
  unfold outcome
  generalize action.run s = result at matching
  generalize other.run s = result' at matching
  cases matching with
  | ok values states => rw [same _ _ values, states.1]
  | fault states => rw [states.1]
  | dangling => rfl
  | exhausted => rfl

namespace Config

namespace Closed

variable {config : Config} {R : State → State → Prop} {E : Fault → State → State → Prop}
  (h : config.Closed R E) {I : State → Prop} (kept : ∀ s s', I s → R s s' → I s')
  (pushed : ∀ s, I s → I s.entered) {watch : Watch} (enters : ∀ s, I s → watch.entered s)
  (returns : ∀ {α : Type} s (result : Except Fault α) s', I s → Outcome R E s result s' →
    watch.returned s s')
  (callReturns : ∀ levels callee values type s result s', I s →
    (config.functionCall (CellC.exec config levels) callee values type).Returns s result s' →
    watch.callReturned s s')
include h kept pushed enters callReturns

/-- A call under a watch is related to the call without if their bodies are. -/
theorem related_watchedCall (alarm : Halt) {levels : Nat}
    {exec : StmtId → Action Completion}
    (hexec : ∀ (i : { s // I s }) id, Related (fun s t => s = t ∧ R i s)
      (fun fault s t => s = t ∧ E fault i s) (Completion.Related (· = ·))
      (CellC.exec config levels id) (exec id))
    (i : { s // I s }) (callee : FuncId) {values values' : List Value} (type : TypeId)
    (cells : values.map Value.cell = values'.map Value.cell) :
    Related (fun s t => s = t ∧ R i s) (fun fault s t => s = t ∧ E fault i s) (· = ·)
      (config.functionCall (CellC.exec config levels) callee values type)
      (config.watchedCall watch alarm exec callee values' type) := by
  have rules := h.correspondence kept pushed
  refine Action.related_watched (rules.functionCall hexec callee type cells)
    (fun s start => enters s (kept i s i.2 start)) fun s result s' start run => ?_
  exact callReturns levels callee values type s result s' (kept i s i.2 start) run

include returns

/-- Evaluations, executions and loops under a watch are related to those without, from every state
in which the predicate holds. -/
theorem related_watched (alarm : Halt) (levels : Nat) :
    (∀ (i : { s // I s }) id, Related (fun s t => s = t ∧ R i s)
      (fun fault s t => s = t ∧ E fault i s) (· = ·) (CellC.eval config levels id)
      (config.watchedEval watch alarm levels id)) ∧
    (∀ (i : { s // I s }) id, Related (fun s t => s = t ∧ R i s)
      (fun fault s t => s = t ∧ E fault i s) (Completion.Related (· = ·))
      (CellC.exec config levels id) (config.watchedExec watch alarm levels id)) ∧
    (∀ (i : { s // I s }) cond body step, Related (fun s t => s = t ∧ R i s)
      (fun fault s t => s = t ∧ E fault i s) (Completion.Related (· = ·))
      (CellC.loop config levels cond body step)
      (config.watchedLoop watch alarm levels cond body step)) := by
  have rules := h.correspondence kept pushed
  induction levels with
  | zero =>
    refine ⟨fun i id => ?_, fun i id => ?_, fun i cond body step => ?_⟩ <;>
      exact Related.throw_exhausted
  | succ levels ih =>
    obtain ⟨heval, hexec, hloop⟩ := ih
    have holds (i : { s // I s }) (s : State) : R i s → I s := kept i s i.2
    -- Each watch is passed: at the start by the predicate, at the return by the relation, which the
    -- evaluation without watches is known to keep.
    refine ⟨fun i id => ?_, fun i id => ?_, fun i cond body step => ?_⟩
    · refine Action.related_watched (rules.evaluation (heval i) ?_ id)
        (fun s start => enters s (holds i s start)) fun s result s' start run => ?_
      · intro callee values values'
        exact h.related_watchedCall kept pushed enters callReturns alarm hexec i callee
      · exact returns s result s' (holds i s start)
          (h.eval (show (CellC.eval config (levels + 1) id).Returns s result s' from run))
    · refine Action.related_watched (rules.execution (heval i) (hexec i) (hloop i) id)
        (fun s start => enters s (holds i s start)) fun s result s' start run => ?_
      exact returns s result s' (holds i s start)
        (h.exec (show (CellC.exec config (levels + 1) id).Returns s result s' from run))
    · exact rules.iteration (heval i) (hexec i) (hloop i) cond body step

/-- A watch has nothing to object to in any state in which the predicate holds. -/
theorem unalarmed {s : State} (start : I s) : config.Unalarmed watch s := by
  have rules := h.correspondence kept pushed
  have trees (alarm : Halt) (levels : Nat) :=
    h.related_watched kept pushed enters returns callReturns alarm levels
  refine ⟨fun alarm levels id => ?_, fun alarm levels id => ?_, fun alarm levels => ?_⟩
  · exact ((trees alarm levels).1 ⟨s, start⟩ id).outcome_eq (fun _ _ same => same) (h.refl s)
  · refine ((trees alarm levels).2.1 ⟨s, start⟩ id).outcome_eq (fun c d ended => ?_) (h.refl s)
    rwa [Completion.related_eq] at ended
  · have related := rules.running ((trees alarm levels).1 ⟨s, start⟩)
      (fun _ _ start => start.1 ▸ rfl)
      (fun _ _ start => start.1 ▸ ⟨rfl, h.trans start.2 (h.ready _)⟩)
      (fun callee _ _ => h.related_watchedCall kept pushed enters callReturns alarm
        (trees alarm levels).2.1 ⟨s, start⟩ callee)
      (fun v w same => same ▸ rules.remark _ rfl)
    exact related.outcome_eq (fun _ _ same => same) (h.refl s)

end Closed

end Config

end CellC
