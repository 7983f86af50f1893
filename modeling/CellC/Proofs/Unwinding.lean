import CellC.Proofs.Levels
import CellC.Proofs.ReturnValue

/-!
# Returns unwind one activation

A `return` ends all the statements around it up to the body of its function, and none beyond. What a
statement passes on to the statement around it, and what stands in the frame as the value to return,
are two records of the same event; they agree after every execution.

Both facts are properties of scripts. A script unwinds if nothing in it follows a statement that
returned; every rule for statements is such a script carried out, and what is true of one script is
true of whole executions by induction on the number of levels.

## Main definitions

* `Config.moments`: what an activation turns to in the course of an execution, read off the scripts
  that `exec_eq_run` and `loop_eq_run` prove to be the rules for statements and iterations
* `Script.Unwinds`: nothing follows a statement that returned
* `Closes`: a `return` is the last moment of an execution, if there is one at all
* `Config.InTurn`: statements are executed one after the other, and none of them returns

## Main results

* `Config.unwinds_statementScript`: the scripts of all statements unwind
* `return_unwinds_activation`: what a `return` does to the activation in which it runs
-/

namespace CellC

open CellC.Action (KeepsRet)

variable {α β : Type}

/-! ### Moments -/

/-- What an activation turns to in the course of an execution. -/
inductive Moment
  /-- The evaluation of an expression begins. -/
  | evaluates (expr : ExprId)
  /-- The execution of a statement begins. -/
  | executes (stmt : StmtId)
  /-- A `return` sets the value to return. -/
  | returns (value : Value)
deriving DecidableEq

/-- The moments of a request of a statement, given those of the statements within it and those of
iterations. What an expression does on its way is not among them. -/
def Request.moments (within : StmtId → State → List Moment)
    (iterations : ExprId → StmtId → Option ExprId → State → List Moment) :
    Request → State → List Moment
  | operate (.returning value), _ => [.returns value]
  | evaluate expr, _ => [.evaluates expr]
  | execute stmt, s => .executes stmt :: within stmt s
  | iterate cond body step, s => iterations cond body step s
  | operate _, _ | invoke _ _ _, _ | run, _ => []

/-- The moments that follow an action, if it yields a value. -/
def Action.following (result : EStateM.Result Halt State α) (rest : α → State → List Moment) :
    List Moment :=
  match result with
  | .ok a s => rest a s
  | .error _ _ => []

@[simp] theorem Action.following_nil (result : EStateM.Result Halt State α) :
    following result (fun _ _ => []) = [] := by
  cases result <;> rfl

/-- The moments of a script carried out from a state, in order, given those of its requests. -/
def Script.moments (carryOut : (request : Request) → Action request.Answer)
    (own : Request → State → List Moment) : Script α → State → List Moment
  | done _, _ => []
  | ask request next, s =>
    own request s ++ Action.following ((carryOut request).run s) fun answer =>
      (next answer).moments carryOut own

namespace Config

variable (config : Config)

mutual

/-- The moments of an activation in the course of the execution of a statement from a state. -/
def moments : Nat → StmtId → State → List Moment
  | 0, _, _ => []
  | levels + 1, id, s =>
    (config.executionScript id).moments (config.carryOut levels)
      (Request.moments (moments levels) (loopMoments levels)) s

/-- The moments of an activation in the course of the iterations of a loop from a state. -/
def loopMoments : Nat → ExprId → StmtId → Option ExprId → State → List Moment
  | 0, _, _, _, _ => []
  | levels + 1, cond, body, step, s =>
    (iterationScript cond body step).moments (config.carryOut levels)
      (Request.moments (moments levels) (loopMoments levels)) s

end

end Config

/-! ### Moments and values to return -/

/-- The value to return after a statement that ended in some way, given that before. -/
def Completion.ret (before : Value) : Completion → Value
  | .completed => before
  | .returned value => value

/-- Where the action yields a completion, the value to return is the one that it tells. -/
def Action.SetsRet (action : Action Completion) : Prop :=
  ∀ ⦃s completion s'⦄, action.Returns s (.ok completion) s' →
    s'.stack.top.ret = completion.ret s.stack.top.ret

/-- No `return` is among the moments. -/
def Unreturned (moments : List Moment) : Prop := ∀ value, .returns value ∉ moments

/-- An execution that returned did so in its last moment, and no other moment is a `return`; in the
moments of any other execution there is none. -/
def Closes (result : EStateM.Result Halt State Completion) (moments : List Moment) : Prop :=
  match result with
  | .ok (.returned value) _ => ∃ earlier, moments = earlier ++ [.returns value] ∧ Unreturned earlier
  | _ => Unreturned moments

theorem Unreturned.cons {moment : Moment} {moments : List Moment}
    (other : ∀ value, moment ≠ .returns value) (rest : Unreturned moments) :
    Unreturned (moment :: moments) := by
  intro value mem
  obtain same | mem := List.mem_cons.mp mem
  · exact other value same.symm
  · exact rest value mem

theorem Unreturned.append {moments more : List Moment} (first : Unreturned moments)
    (rest : Unreturned more) : Unreturned (moments ++ more) := by
  intro value mem
  obtain mem | mem := List.mem_append.mp mem
  · exact first value mem
  · exact rest value mem

theorem Unreturned.nil : Unreturned [] := fun _ => List.not_mem_nil

/-- Moments before the first `return` change nothing. -/
theorem Closes.append {result : EStateM.Result Halt State Completion} {moments more : List Moment}
    (first : Unreturned moments) (rest : Closes result more) : Closes result (moments ++ more) := by
  match result, rest with
  | .ok (.returned value) _, ⟨earlier, same, before⟩ =>
    exact ⟨moments ++ earlier, by rw [same, List.append_assoc], first.append before⟩
  | .ok .completed _, rest => exact first.append rest
  | .error _ _, rest => exact first.append rest

theorem Closes.cons {result : EStateM.Result Halt State Completion} {moment : Moment}
    {moments : List Moment} (other : ∀ value, moment ≠ .returns value)
    (rest : Closes result moments) : Closes result (moment :: moments) :=
  Closes.append (.cons other .nil) rest

/-- A `return` among the moments ended the execution and was the last of them. -/
theorem Closes.of_returned {result : EStateM.Result Halt State Completion}
    {moments : List Moment} (closes : Closes result moments) {value : Value}
    (returned : .returns value ∈ moments) :
    (∃ s', result = .ok (.returned value) s') ∧
      ∃ earlier, moments = earlier ++ [.returns value] ∧ Unreturned earlier := by
  match result, closes with
  | .ok .completed _, unreturned => exact absurd returned (unreturned value)
  | .error _ _, unreturned => exact absurd returned (unreturned value)
  | .ok (.returned other) s', ⟨earlier, same, before⟩ =>
    subst same
    obtain mem | last := List.mem_append.mp returned
    · exact absurd mem (before value)
    · obtain rfl := Moment.returns.inj (List.mem_singleton.mp last)
      exact ⟨⟨s', rfl⟩, earlier, rfl, before⟩

/-- Only setting a value to return is a `return`, apart from what statements within do. -/
theorem Request.unreturned_moments {within : StmtId → State → List Moment}
    {iterations : ExprId → StmtId → Option ExprId → State → List Moment} {request : Request}
    (spares : request.SparesRet) (s : State) :
    Unreturned (request.moments within iterations s) := by
  cases request with
  | operate operation =>
    cases operation with
    | returning => cases spares
    | _ => exact .nil
  | evaluate expr => exact .cons (by simp) .nil
  | invoke => exact .nil
  | execute | iterate | run => cases spares

namespace Script

/-- Nothing in the script follows a statement that returned, and only a `return` of the script
itself or of such a statement makes it end as returned. -/
inductive Unwinds : Script Completion → Prop
  | completed : Unwinds (done .completed)
  | gives (value : Value) :
    Unwinds (ask (.operate (.returning value)) fun _ => done (.returned value))
  | spares {request : Request} {next : request.Answer → Script Completion} : request.SparesRet →
    (∀ answer, Unwinds (next answer)) → Unwinds (ask request next)
  | executes {stmt : StmtId} {next : Completion → Script Completion} :
    (∀ value, next (.returned value) = done (.returned value)) → Unwinds (next .completed) →
    Unwinds (ask (.execute stmt) next)
  | iterates (cond : ExprId) (body : StmtId) (step : Option ExprId) :
    Unwinds (iterate cond body step)

/-- What unwinds still does so after requests that return nothing. -/
theorem Unwinds.after {script : Script α} {next : α → Script Completion}
    (asks : script.Asks Request.SparesRet) (rest : ∀ a, (next a).Unwinds) :
    (script >>= next).Unwinds := by
  induction script with
  | done a => exact rest a
  | ask request further ih => exact .spares asks.1 fun answer => ih answer (asks.2 answer)

theorem unwinds_fail (fault : Fault) : (fail fault : Script Completion).Unwinds :=
  .spares trivial nofun

theorem unwinds_execute (stmt : StmtId) : (execute stmt).Unwinds :=
  .executes (fun _ => rfl) .completed

section Levels

variable {config : Config} {levels : Nat} {script : Script Completion}

/-- A script that unwinds leaves the value to return that its completion tells, if its parts do. -/
theorem Unwinds.setsRet (unwinds : script.Unwinds)
    (hexec : ∀ id, (CellC.exec config levels id).SetsRet)
    (hloop : ∀ cond body step, (CellC.loop config levels cond body step).SetsRet) :
    (script.run (config.carryOut levels)).SetsRet := by
  induction unwinds with
  | completed =>
    intro s completion s' run
    cases run
    rfl
  | gives value =>
    intro s completion s' run
    cases run
    exact congrArg Frame.ret (CallStack.top_modifyTop _ _)
  | spares spares _ ih =>
    intro s completion s' run
    obtain ⟨answer, t, run, rest⟩ := run.of_bind
    rw [ih answer rest, config.keepsRet_carryOut levels spares run]
  | @executes stmt next returned _ ih =>
    intro s completion s' run
    obtain ⟨inner, t, run, rest⟩ := run.of_bind
    have slot := hexec stmt run
    cases inner with
    | completed => rw [ih rest, slot]; rfl
    | returned value =>
      -- The script is at its end, so the inner statement's value is what stands in the frame.
      rw [returned value] at rest
      cases rest
      exact slot
  | iterates cond body step =>
    rw [Script.iterate, run_request]
    exact hloop cond body step

/-- In a script that unwinds a `return` is the last moment, if that is so in its parts. -/
theorem Unwinds.closes (unwinds : script.Unwinds)
    (hexec : ∀ id s, Closes ((CellC.exec config levels id).run s) (config.moments levels id s))
    (hloop : ∀ cond body step s, Closes ((CellC.loop config levels cond body step).run s)
      (config.loopMoments levels cond body step s)) (s : State) :
    Closes ((script.run (config.carryOut levels)).run s)
      (script.moments (config.carryOut levels)
        (Request.moments (config.moments levels) (config.loopMoments levels)) s) := by
  induction unwinds generalizing s with
  | completed => exact .nil
  | gives value => exact ⟨[], rfl, .nil⟩
  | @spares request next spares _ ih =>
    unfold Script.run Script.moments
    rw [EStateM.run_bind]
    refine Closes.append (Request.unreturned_moments spares s) ?_
    cases (config.carryOut levels request).run s with
    | ok answer t => exact ih answer t
    | error halt t => exact .nil
  | @executes stmt next returned _ ih =>
    unfold Script.run Script.moments
    rw [EStateM.run_bind]
    refine Closes.cons (by simp) ?_
    have inner : Closes ((config.carryOut levels (.execute stmt)).run s)
      (config.moments levels stmt s) := hexec stmt s
    generalize (config.carryOut levels (.execute stmt)).run s = result at inner
    match result, inner with
    | .ok .completed t, inner => exact Closes.append inner (ih t)
    | .error halt t, inner => exact Closes.append inner Unreturned.nil
    | .ok (.returned value) t, inner =>
      dsimp only [Action.following]
      rw [returned value]
      show Closes _ (config.moments levels stmt s ++ [])
      rw [List.append_nil]
      exact inner
  | iterates cond body step =>
    rw [Script.iterate, run_request]
    have inner : Closes ((config.carryOut levels (.iterate cond body step)).run s)
      (config.loopMoments levels cond body step s) := hloop cond body step s
    show Closes _ (config.loopMoments levels cond body step s ++
      Action.following ((config.carryOut levels (.iterate cond body step)).run s) fun _ _ => [])
    rw [Action.following_nil, List.append_nil]
    exact inner

end Levels

end Script

namespace Config

variable {config : Config}

open Script (operate evaluate execute)

theorem unwinds_compoundScript (stmts : List StmtId) : (compoundScript stmts).Unwinds := by
  induction stmts with
  | nil => exact .completed
  | cons stmt stmts ih => exact .executes (fun _ => rfl) ih

theorem unwinds_branchScript (cond : ExprId) (yes : StmtId) (no : Option StmtId) :
    (branchScript cond yes no).Unwinds := by
  refine .spares trivial fun value => ?_
  show Script.Unwinds (if value.isTrue then execute yes else _)
  split
  · exact Script.unwinds_execute yes
  · cases no with
    | some stmt => exact Script.unwinds_execute stmt
    | none => exact .completed

theorem unwinds_forScript (start : Option StmtId) (cond step : Option ExprId) (body : StmtId) :
    (forScript start cond step body).Unwinds := by
  have rest : (afterStartScript cond step body .completed).Unwinds := by
    cases cond with
    | some cond => exact .iterates cond body step
    | none => exact Script.unwinds_fail _
  cases start with
  | some stmt => exact .executes (fun _ => rfl) rest
  | none => exact rest

/-- Declarations return nothing. -/
theorem asks_declareAllScript_sparesRet (vars : List VarId) :
    (config.declareAllScript vars).Asks Request.SparesRet := by
  refine (config.asks_declareAllScript vars).mono fun request serves => ?_
  unfold Request.ServesDeclarations at serves
  split at serves <;> trivial

/-- The script of a statement unwinds, whatever its form. -/
theorem unwinds_statementScript (stmt : Stmt) : (config.statementScript stmt).Unwinds := by
  cases stmt with
  | decl vars => exact .after (asks_declareAllScript_sparesRet vars) fun _ => .completed
  | expr expr => exact .spares trivial fun _ => .completed
  | branch cond yes no => exact unwinds_branchScript cond yes no
  | «while» cond body => exact .iterates cond body none
  | «for» start cond step body => exact unwinds_forScript start cond step body
  | «return» value =>
    cases value with
    | some expr => exact .spares trivial fun value => .gives value
    | none => exact .gives .zero
  | compound stmts => exact unwinds_compoundScript stmts
  | «break» | «continue» => exact Script.unwinds_fail _

theorem unwinds_executionScript (id : StmtId) : (config.executionScript id).Unwinds :=
  .spares trivial fun stmt => .spares trivial fun _ => unwinds_statementScript stmt

theorem unwinds_iterationScript (cond : ExprId) (body : StmtId) (step : Option ExprId) :
    (iterationScript cond body step).Unwinds := by
  refine .spares trivial fun value => ?_
  show Script.Unwinds (if value.isTrue then _ else _)
  split
  · refine .executes (fun _ => rfl) ?_
    cases step with
    | some expr => exact .spares trivial fun _ => .iterates cond body _
    | none => exact .iterates cond body none
  · exact .completed

/-! ### Whole executions -/

/-- After an execution the value to return is the one that its completion tells. -/
theorem setsRet_trees (config : Config) (levels : Nat) :
    (∀ id, (CellC.exec config levels id).SetsRet) ∧
    (∀ cond body step, (CellC.loop config levels cond body step).SetsRet) := by
  induction levels with
  | zero =>
    refine ⟨fun id s completion s' run => ?_, fun cond body step s completion s' run => ?_⟩ <;>
      cases run
  | succ levels ih =>
    obtain ⟨hexec, hloop⟩ := ih
    refine ⟨fun id => ?_, fun cond body step => ?_⟩
    · rw [exec_eq_run]
      exact (unwinds_executionScript id).setsRet hexec hloop
    · rw [loop_eq_run]
      exact (unwinds_iterationScript cond body step).setsRet hexec hloop

/-- A `return` is the last moment of an execution. -/
theorem closes_trees (config : Config) (levels : Nat) :
    (∀ id s, Closes ((CellC.exec config levels id).run s) (config.moments levels id s)) ∧
    (∀ cond body step s, Closes ((CellC.loop config levels cond body step).run s)
      (config.loopMoments levels cond body step s)) := by
  induction levels with
  | zero => exact ⟨fun id s => .nil, fun cond body step s => .nil⟩
  | succ levels ih =>
    obtain ⟨hexec, hloop⟩ := ih
    refine ⟨fun id s => ?_, fun cond body step s => ?_⟩
    · rw [exec_eq_run]
      exact (unwinds_executionScript id).closes hexec hloop s
    · rw [loop_eq_run]
      exact (unwinds_iterationScript cond body step).closes hexec hloop s

/-- Statements executed one after the other, each of them to its end. -/
inductive InTurn (config : Config) (levels : Nat) : List StmtId → State → State → Prop
  | nil {s} : InTurn config levels [] s s
  | cons {stmt stmts s t u} : (CellC.exec config levels stmt).Returns s (.ok .completed) t →
      InTurn config levels stmts t u → InTurn config levels (stmt :: stmts) s u

/-- Statements in sequence that did not return were all executed to their ends. -/
theorem inTurn_of_compound {levels : Nat} {stmts : List StmtId} {s s' : State}
    (run : (compound (CellC.exec config levels) stmts).Returns s (.ok .completed) s') :
    config.InTurn levels stmts s s' := by
  induction stmts generalizing s with
  | nil => cases run; exact .nil
  | cons stmt stmts ih =>
    obtain ⟨completion, t, first, rest⟩ := run.of_bind
    cases completion with
    | completed => exact .cons first (ih rest)
    | returned value => cases rest

/-- A loop that did not return ended with its condition false. -/
theorem false_of_loop {levels : Nat} {cond : ExprId} {body : StmtId} {step : Option ExprId}
    {s s' : State}
    (run : (CellC.loop config levels cond body step).Returns s (.ok .completed) s') :
    ∃ t value, config.Evaluates cond t (.ok value) s' ∧ value.isTrue = false := by
  induction levels generalizing s with
  | zero => cases run
  | succ levels ih =>
    obtain ⟨value, t, tested, rest⟩ := run.of_bind
    by_cases holds : value.isTrue = true
    swap
    · rw [if_neg holds] at rest
      cases rest
      exact ⟨s, value, ⟨levels, tested⟩, by simpa using holds⟩
    rw [if_pos holds] at rest
    obtain ⟨completion, u, _, rest⟩ := rest.of_bind
    cases completion with
    | returned value => cases rest
    | completed =>
      cases step with
      | none => exact ih rest
      | some expr =>
        obtain ⟨_, _, _, rest⟩ := rest.of_bind
        exact ih rest

/-! ### Calls -/

/-- An activation yields what its body returned, and zero if the body did not return. -/
theorem body_of_activation {levels : Nat} {params : List VarId} {values : List Value}
    {body : StmtId} {s s' : State} {ret : Value}
    (run : (config.activation (CellC.exec config levels) params values body).Returns s
      (.ok ret) s') :
    ∃ t completion u, (config.bindParams params values).Returns s.entered (.ok ()) t ∧
      (CellC.exec config levels body).Returns t (.ok completion) u ∧
      ret = completion.ret .zero := by
  unfold Action.Returns at run
  rw [run_activation] at run
  cases outcome : (config.boundBody (CellC.exec config levels) params values body).run
      s.entered with
  | error halt u =>
    rw [outcome] at run
    cases halt with
    | dangling | exhausted => cases run
    | fault fault =>
      dsimp only at run
      cases popped : Action.popFrame.run u <;> rw [popped] at run <;> cases run
  | ok _ u =>
    rw [outcome] at run
    obtain ⟨_, t, bound, ran⟩ := Action.Returns.of_bind (b := ()) outcome
    obtain ⟨completion, ran⟩ := ran.of_discard
    refine ⟨t, completion, u, bound, ran, ?_⟩
    -- The frame that is popped began with zero, and the body set its value to return.
    have slot : u.stack.top.ret = completion.ret .zero := by
      rw [(setsRet_trees config levels).1 body ran, keepsRet_bindParams params values bound]
      rfl
    dsimp only at run
    cases found : u.stack.calls with
    | nil => rw [Action.run_popFrame_nil found] at run; cases run
    | cons frame calls =>
      rw [Action.run_popFrame_cons found] at run
      cases run
      rw [← slot]
      unfold CallStack.top
      rw [found]
      rfl

theorem activation_of_functionCall {exec : StmtId → Action Completion} {callee : FuncId}
    {values : List Value} {type : TypeId} {s s' : State} {value : Value}
    (run : (config.functionCall exec callee values type).Returns s (.ok value) s') :
    ∃ decl body ret,
      config.program.func? (config.setup.implementation config.program callee) = some decl ∧
      decl.body = some body ∧
      (config.activation exec decl.params values body).Returns s (.ok ret) s' ∧
      value = config.types.view type ret.cell := by
  obtain ⟨decl, t, found, run⟩ := run.of_bind
  cases look : config.program.func? (config.setup.implementation config.program callee) with
  | none => rw [look] at found; cases found
  | some decl' =>
    rw [look] at found
    cases found
    dsimp only at run
    cases hbody : decl.body with
    | none => rw [hbody] at run; cases run
    | some body =>
      rw [hbody] at run
      obtain ⟨_, t, arity, run⟩ := run.of_bind
      obtain ⟨_, u, depth, run⟩ := run.of_bind
      obtain ⟨ret, v, activation, run⟩ := run.of_bind
      cases run
      obtain rfl : t = s := by
        unfold checkArity at arity
        split at arity <;> cases arity
        rfl
      have unchanged : Action.Settles (· = t) (fun _ _ => True) (config.checkDepth.run t) :=
        Steps.settles_checkDepth (fun _ _ _ _ => trivial) t rfl
      unfold Action.Returns at depth
      rw [depth] at unchanged
      cases unchanged with
      | ok same => exact ⟨decl, body, ret, rfl, hbody, same ▸ activation, rfl⟩

/-- A call yields what the body that it ran returned, and zero if that did not return. -/
theorem body_of_functionCall {levels : Nat} {callee : FuncId} {values : List Value} {type : TypeId}
    {s s' : State} {value : Value}
    (run : (config.functionCall (CellC.exec config levels) callee values type).Returns s
      (.ok value) s') :
    ∃ decl body t completion u,
      config.program.func? (config.setup.implementation config.program callee) = some decl ∧
      decl.body = some body ∧
      (config.bindParams decl.params values).Returns s.entered (.ok ()) t ∧
      (CellC.exec config levels body).Returns t (.ok completion) u ∧
      value = config.types.view type
        (match completion with
          | .returned value => value.cell
          | .completed => 0) := by
  obtain ⟨decl, body, ret, found, hbody, activation, rfl⟩ := activation_of_functionCall run
  obtain ⟨t, completion, u, bound, ran, rfl⟩ := body_of_activation activation
  refine ⟨decl, body, t, completion, u, found, hbody, bound, ran, ?_⟩
  cases completion <;> rfl

end Config

/-- A `return` unwinds the activation in which it runs, and no other. The moments of an execution
are those of the evaluator: they are read off the scripts that `Config.exec_eq_run` and
`Config.loop_eq_run` prove to be the rules for statements and iterations. -/
theorem return_unwinds_activation (config : Config) (levels : Nat) :
    -- What a statement passes on and what the frame says are the same.
    (∀ id s s' value, (CellC.exec config levels id).Returns s (.ok (.returned value)) s' →
      s'.stack.top.ret = value) ∧
    (∀ id s s', (CellC.exec config levels id).Returns s (.ok .completed) s' →
      s'.stack.top.ret = s.stack.top.ret) ∧
    -- A `return` of the activation is its last moment, and the statements around it end there.
    (∀ id s value, .returns value ∈ config.moments levels id s →
      (∃ s', (CellC.exec config levels id).Returns s (.ok (.returned value)) s') ∧
        ∃ earlier, config.moments levels id s = earlier ++ [.returns value] ∧
          Unreturned earlier) ∧
    -- No statement ends for another reason before its time, whatever functions were called in it.
    (∀ id s s' value, (CellC.exec config levels id).Returns s (.ok (.returned value)) s' →
      .returns value ∈ config.moments levels id s) ∧
    (∀ id s s' stmts, config.program.stmt? id = some (.compound stmts) →
      (CellC.exec config (levels + 1) id).Returns s (.ok .completed) s' →
      config.InTurn levels stmts { s with journal := s.journal.push (.exec id) } s') ∧
    (∀ cond body step s s',
      (CellC.loop config levels cond body step).Returns s (.ok .completed) s' →
      ∃ t value, config.Evaluates cond t (.ok value) s' ∧ value.isTrue = false) ∧
    (∀ id s s' value, (CellC.eval config levels id).Returns s (.ok value) s' →
      s'.stack.top.ret = s.stack.top.ret) ∧
    -- A call yields what its body returned, and zero if that did not return.
    (∀ callee values type s s' value,
      (config.functionCall (CellC.exec config levels) callee values type).Returns s
        (.ok value) s' →
      ∃ decl body t completion u,
        config.program.func? (config.setup.implementation config.program callee) = some decl ∧
        decl.body = some body ∧
        (config.bindParams decl.params values).Returns s.entered (.ok ()) t ∧
        (CellC.exec config levels body).Returns t (.ok completion) u ∧
        value = config.types.view type
          (match completion with
            | .returned value => value.cell
            | .completed => 0)) := by
  have sets := (config.setsRet_trees levels).1
  have closes := (config.closes_trees levels).1
  refine ⟨fun id s s' value run => sets id run, fun id s s' run => sets id run,
    fun id s value returned => (closes id s).of_returned returned, fun id s s' value run => ?_,
    fun id s s' stmts found run => ?_, fun _ _ _ _ _ => Config.false_of_loop,
    fun id s s' value run => config.keepsRet_eval levels id run,
    fun _ _ _ _ _ _ => Config.body_of_functionCall⟩
  · have closed := closes id s
    rw [run] at closed
    obtain ⟨earlier, same, -⟩ := closed
    rw [same]
    exact List.mem_append_right _ (List.mem_singleton_self _)
  · obtain ⟨stmt, t, same, run⟩ := run.of_bind
    rw [found] at same
    cases same
    obtain ⟨_, t, emitted, run⟩ := run.of_bind
    cases emitted
    exact Config.inTurn_of_compound run

/-- A function that returns its argument in the start of a `for` statement without a condition, and
an entry point that calls it in the condition of a loop and in a `return` deep inside that loop. -/
def returnTwice : Config where
  program := {
    names := ⟨⟨#["", "f", "p", "main"]⟩⟩
    vars := #[⟨⟨2⟩, .int, none⟩]
    exprs := #[⟨.ident ⟨0⟩, .int⟩, ⟨.intLit 1, .int⟩, ⟨.call ⟨0⟩ [⟨1⟩], .int⟩, ⟨.intLit 7, .int⟩,
      ⟨.call ⟨0⟩ [⟨3⟩], .int⟩, ⟨.intLit 9, .int⟩]
    stmts := #[.return (some ⟨0⟩), .compound [], .for (some ⟨0⟩) none none ⟨1⟩, .compound [⟨2⟩],
      .return (some ⟨4⟩), .compound [⟨4⟩], .while ⟨2⟩ ⟨5⟩, .return (some ⟨5⟩),
      .compound [⟨6⟩, ⟨7⟩]]
    funcs := #[⟨⟨1⟩, [⟨0⟩], .int, some ⟨3⟩⟩, ⟨⟨3⟩, [], .int, some ⟨8⟩⟩]
    topLevel := #[.function ⟨0⟩, .function ⟨1⟩] }
  setup := { entry := ⟨1⟩ }

/-- The body of the entry point returns from inside the loop: the calls that its condition and its
`return` make have returned before, and the statement after the loop is never executed. -/
theorem return_unwinds_activation_returnTwice :
    (∃ s', (CellC.exec returnTwice 20 ⟨8⟩).Returns { stack := { calls := [{}] } }
        (.ok (.returned (.int 7))) s' ∧ s'.stack.top.ret = .int 7) ∧
      returnTwice.moments 20 ⟨8⟩ { stack := { calls := [{}] } } =
        [.executes ⟨6⟩, .evaluates ⟨2⟩, .executes ⟨5⟩, .executes ⟨4⟩, .evaluates ⟨4⟩] ++
          [.returns (.int 7)] ∧
      Unreturned [.executes ⟨6⟩, .evaluates ⟨2⟩, .executes ⟨5⟩, .executes ⟨4⟩, .evaluates ⟨4⟩] := by
  refine ⟨⟨_, rfl, (return_unwinds_activation returnTwice 20).1 ⟨8⟩ _ _ (.int 7) rfl⟩, rfl, ?_⟩
  simp [Unreturned]

end CellC
