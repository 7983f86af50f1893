import CellC.Proofs.Scripts
import CellC.Proofs.StackDiscipline
import Mathlib.Logic.Relation

/-!
# The parts of a job

A job is a request made in some state. Carrying it out makes further requests, in the order of its
script, and each of these is a job of its own: a part of the first. So the parts of the parts of a
job, and so on, are all the evaluations, executions, calls and operations of the machine that take
place in its course, however deep in expressions, statements and activations.

The scripts are the rules: `Config.eval_eq_run`, `Config.exec_eq_run`, `Config.loop_eq_run`,
`Config.functionCall_eq_run`, `Config.boundBody_eq_run` and `Config.run_eq_run` say of each of them
that to carry it out is to evaluate, execute, call or run. So what is said of the parts of a job is
said of what the evaluator does.

## Main definitions

* `Job`, `Job.Ends`: a request made in some state, and how it ends
* `Script.Reaches`: a script comes to a request
* `Config.Part`, `Config.Contains`: the parts of a job, at once and at any depth

## Main results

* `Config.Closed.carryOut`: every request keeps a closed relation
* `Config.undisturbed_carryOut`: no request disturbs the frames below
* `Config.returns_admission_iff`: which calls are admitted
* `Config.body_of_returns_activation`: an activation ends as its body does
-/

namespace CellC

open CellC.Action (Settles)

variable {α β : Type}

/-! ### Scripts and relations between states -/

namespace Script

variable {carryOut : (request : Request) → Action request.Answer} {s s' t u : State}

/-- Carried out from a state, the script comes to a request in another one. -/
inductive Reaches (carryOut : (request : Request) → Action request.Answer) :
    Script α → State → Request → State → Prop
  | here {request next s} : Reaches carryOut (ask request next) s request s
  | later {first next s answer u request t} : (carryOut first).Returns s (.ok answer) u →
      Reaches carryOut (next answer) u request t → Reaches carryOut (ask first next) s request t

/-- The request that a script makes after `k` others. -/
def requestAt (carryOut : (request : Request) → Action request.Answer) :
    Nat → Script α → State → Option (Request × State)
  | _, done _, _ => none
  | 0, ask request _, s => some (request, s)
  | k + 1, ask request next, s =>
    match (carryOut request).run s with
    | .ok answer t => requestAt carryOut k (next answer) t
    | .error _ _ => none

theorem reaches_of_requestAt {k : Nat} {script : Script α} {request : Request}
    (found : requestAt carryOut k script s = some (request, t)) :
    script.Reaches carryOut s request t := by
  induction k generalizing script s with
  | zero =>
    cases script with
    | done a => cases found
    | ask first next =>
      cases found
      exact .here
  | succ k ih =>
    cases script with
    | done a => cases found
    | ask first next =>
      unfold requestAt at found
      split at found
      · next answered => exact .later answered (ih found)
      · cases found

theorem Asks.of_reaches {P : Request → Prop} {script : Script α} (h : script.Asks P)
    {request : Request} (reaches : script.Reaches carryOut s request t) : P request := by
  induction reaches with
  | here => exact h.1
  | later _ _ ih => exact ih (h.2 _)

/-- What follows a script is come to if the script yields a value. -/
theorem Reaches.after {script : Script α} {a : α} {next : α → Script β} {request : Request}
    (returned : (script.run carryOut).Returns s (.ok a) u)
    (reaches : (next a).Reaches carryOut u request t) :
    (script >>= next).Reaches carryOut s request t := by
  induction script generalizing s with
  | done b =>
    cases returned
    exact reaches
  | ask first rest ih =>
    obtain ⟨answer, v, answered, returned⟩ := returned.of_bind
    exact .later answered (ih answer returned)

/-- A script fails where the request fails that it comes to. -/
theorem Reaches.fails {script : Script α} {request : Request} {fault : Fault}
    (reaches : script.Reaches carryOut s request t)
    (failed : (carryOut request).Returns t (.error fault) u) :
    (script.run carryOut).Returns s (.error fault) u := by
  induction reaches with
  | here => exact Action.returns_bind_iff.mpr (.inr ⟨fault, rfl, failed⟩)
  | later answered _ ih => exact Action.returns_bind_iff.mpr (.inl ⟨_, _, answered, ih failed⟩)

section Kept

variable {R : State → State → Prop} (refl : ∀ s, R s s)
  (trans : ∀ {s t u}, R s t → R t u → R s u)
include refl trans

/-- A relation that the requests of a script keep is kept by the script. -/
theorem Asks.keeps {P : Request → Prop} {script : Script α} (asks : script.Asks P)
    (kept : ∀ request, P request →
      ∀ {s result s'}, (carryOut request).Returns s result s' → R s s')
    {result : Except Fault α} (returned : (script.run carryOut).Returns s result s') : R s s' := by
  induction script generalizing s with
  | done a =>
    obtain rfl : s = s' := by
      cases result <;> cases returned
      rfl
    exact refl s
  | ask request next ih =>
    obtain ⟨answer, t, answered, rest⟩ | ⟨fault, -, failed⟩ := Action.returns_bind_iff.mp returned
    · exact trans (kept request asks.1 answered) (ih answer (asks.2 answer) rest)
    · exact kept request asks.1 failed

variable (kept : ∀ request {s result s'}, (carryOut request).Returns s result s' → R s s')
include kept

/-- A relation that every request keeps is kept until a script comes to a request. -/
theorem Reaches.keeps {script : Script α} {request : Request}
    (reaches : script.Reaches carryOut s request t) : R s t := by
  induction reaches with
  | here => exact refl _
  | later answered _ ih => exact trans (kept _ answered) ih

/-- A relation that every request keeps is kept by a script. -/
theorem keeps {script : Script α} {result : Except Fault α}
    (returned : (script.run carryOut).Returns s result s') : R s s' :=
  script.asks_true.keeps refl trans (fun request _ => kept request) returned

end Kept

end Script

/-! ### Closed relations -/

namespace Config

variable {config : Config} {R : State → State → Prop} {E : Fault → State → State → Prop}
  {levels : Nat} {s s' t : State}

/-- What is kept on the way to a value is kept on the way to a fault. -/
theorem Closed.faulting (h : config.Closed R E) : config.Closed R fun _ => R where
  toSteps := h.toSteps
  refl := h.refl
  trans := h.trans
  ready := h.ready
  fault s _ := h.refl s
  fault_trans := h.trans
  leave := h.leave
  abandon := h.leave

/-- Popping a frame leads back to the state before the activation. -/
theorem Closed.afterPop (h : config.Closed R E) {frame : Frame} {calls : List Frame}
    (inside : R s.entered s') (found : s'.stack.calls = frame :: calls) :
    R s (Action.afterPop s' frame calls) := by
  obtain ⟨frame', calls', found', left⟩ := h.leave inside
  obtain ⟨rfl, rfl⟩ := List.cons.inj (found.symm.trans found')
  exact left

section Requests

variable (h : config.Closed R fun _ => R)
  (note : ∀ s event, R s { s with journal := s.journal.push event })
  (release : ∀ s address, R s { s with
    heap := s.heap.remove address
    journal := s.journal.push (Action.releaseEvent s.heap address) })
include h note release

theorem Closed.settles_perform (operation : Operation) (s : State) :
    Settles (R s) (fun _ => R s) ((config.perform operation).run s) := by
  have closed (t u : State) : R s t → R t u → R s u := h.trans
  have faulty (fault : Fault) (t : State) (_ : fault ≠ .noCall) (start : R s t) : R s t := start
  have start := h.refl s
  have found {β : Type} (node : Option β) :
      Settles (R s) (fun _ => R s) ((Action.ofOption node).run s) := by
    cases node with
    | none => exact .dangling
    | some node => exact .ok start
  cases operation with
  | expr | stmt | var | func => exact found _
  | fail fault => exact .fault start
  | compute outcome =>
    cases outcome with
    | ok cell => exact .ok start
    | error fault => exact .fault start
  | note event => exact .ok (note s event)
  | varValue var => exact Steps.settles_varValue faulty var s start
  | assignVar var value => exact h.settles_assignVar closed var value s start
  | bind var value => exact .ok (h.bind s var value)
  | record expr value => exact .ok (h.record s expr value)
  | returning value => exact .ok (h.returning s value)
  | load address type => exact Steps.settles_loadAt faulty address type s start
  | store address type value => exact h.settles_storeAt closed faulty address type value s start
  | newArray size => exact h.settles_newArray closed faulty size s start
  | allocate size =>
    show Settles _ _ ((Action.allocate size .explicit).run s)
    rw [Action.run_allocate]
    cases made : s.heap.allocate size .explicit with
    | ok block => exact .ok (h.newBlock s size _ _ made)
    | error fault => exact .fault start
  | release address =>
    show Settles _ _ ((Action.release address).run s)
    rw [Action.run_release]
    exact .ok (release s address)
  | println line => exact .ok (h.println s line)
  | read => exact h.settles_readInteger closed s start
  | checkDepth => exact Steps.settles_checkDepth faulty s start
  | globalsReady => exact .ok start
  | setGlobalsReady => exact .ok (h.ready s)

/-- Every request keeps a closed relation that neither entries in the journal nor the release of
memory break. -/
theorem Closed.carryOut {request : Request} {result : Except Fault request.Answer}
    (returned : (config.carryOut levels request).Returns s result s') : R s s' := by
  cases request with
  | operate operation =>
    exact (Outcome.of_settles (h.settles_perform note release operation s) returned).elim
  | evaluate id => exact (h.eval returned).elim
  | execute id => exact (h.exec returned).elim
  | iterate cond body step =>
    have related := (h.reflexive.trees levels).2.2 ⟨s, trivial⟩ cond body step
    exact (Outcome.of_settles (settles_of_related related (h.refl s)) returned).elim
  | invoke callee values type =>
    exact (h.functionCall_of (fun s _ => h.refl s) h.afterPop h.afterPop returned).elim
  | run => exact (h.run returned).elim

end Requests

/-! ### Frames -/

/-- No request disturbs the frames below. -/
theorem undisturbed_carryOut (request : Request) {result : Except Fault request.Answer}
    (returned : (config.carryOut levels request).Returns s result s') :
    s.stack.Undisturbed config.setup s'.stack :=
  config.closed_undisturbed.faulting.carryOut (fun _ _ => .refl _) (fun _ _ => .refl _) returned

theorem undisturbed_script {script : Script α} {result : Except Fault α}
    (returned : (script.run (config.carryOut levels)).Returns s result s') :
    s.stack.Undisturbed config.setup s'.stack :=
  script.keeps (R := fun s t => s.stack.Undisturbed config.setup t.stack) (fun _ => .refl _)
    .trans (fun request => undisturbed_carryOut request) returned

theorem undisturbed_reaches {script : Script α} {request : Request}
    (reaches : script.Reaches (config.carryOut levels) s request t) :
    s.stack.Undisturbed config.setup t.stack :=
  reaches.keeps (R := fun s t => s.stack.Undisturbed config.setup t.stack) (fun _ => .refl _)
    .trans fun request => undisturbed_carryOut request

section Activations

variable {params : List VarId} {values : List Value} {body : StmtId}

/-- An activation ends as its body does, and pops its frame, which lies on those that were there
before. It yields the value to return in that frame. -/
theorem returns_activation {outcome : Except Fault Unit} {u : State}
    (ended : ((config.bodyScript params values body).run (config.carryOut levels)).Returns s.entered
      outcome u) :
    ∃ frame, u.stack.calls = frame :: s.stack.calls ∧
      (config.activation (CellC.exec config levels) params values body).Returns s
        (outcome.map fun _ => frame.ret) (Action.afterPop u frame s.stack.calls) := by
  obtain ⟨frame, found⟩ := (undisturbed_script ended).calls_of_push
  refine ⟨frame, found, ?_⟩
  rw [← boundBody_eq_run] at ended
  unfold Action.Returns at ended ⊢
  rw [run_activation, ended]
  cases outcome with
  | ok _ => exact Action.run_popFrame_cons found
  | error fault =>
    dsimp only
    rw [Action.run_popFrame_cons found]
    rfl

/-- An activation that ends had a body that ended. -/
theorem body_of_returns_activation {result : Except Fault Value}
    (returned : (config.activation (CellC.exec config levels) params values body).Returns s
      result s') :
    ∃ outcome u frame,
      ((config.bodyScript params values body).run (config.carryOut levels)).Returns s.entered
        outcome u ∧
      u.stack.calls = frame :: s.stack.calls ∧ s' = Action.afterPop u frame s.stack.calls ∧
      result = outcome.map fun _ => frame.ret := by
  have body : ∃ outcome u, (config.boundBody (CellC.exec config levels) params values body).Returns
      s.entered outcome u := by
    obtain ⟨u, ended, -⟩ | ⟨fault, u, failed, -⟩ := returns_activation_iff.mp returned
    · exact ⟨.ok (), u, ended⟩
    · exact ⟨.error fault, u, failed⟩
  obtain ⟨outcome, u, ended⟩ := body
  rw [boundBody_eq_run] at ended
  obtain ⟨frame, found, popped⟩ := returns_activation ended
  obtain ⟨same, same'⟩ := returned.unique popped
  exact ⟨outcome, u, frame, ended, found, same', same⟩

end Activations

/-! ### Admission -/

section Admission

variable {callee : FuncId} {values : List Value}

/-- Whether one more call is permitted at some depth of the stack. -/
def permission (config : Config) (depth : Nat) : Except Fault Unit :=
  match config.depthLimit with
  | some limit => if limit < depth then .error (.tooDeep limit) else .ok ()
  | none => .ok ()

theorem returns_checkDepth (config : Config) (s : State) :
    config.checkDepth.Returns s (config.permission s.stack.depth) s := by
  unfold Action.Returns checkDepth permission
  cases config.depthLimit with
  | none => rfl
  | some limit =>
    dsimp only
    rw [Action.run_get_bind]
    by_cases deep : limit < s.stack.depth
    · rw [if_pos deep, if_pos deep]
      rfl
    · rw [if_neg deep, if_neg deep]
      rfl

/-- Whether a call is admitted depends on its function and on the depth of the stack. -/
def admission (config : Config) (decl : FuncDecl) (values : List Value) (depth : Nat) :
    Except Fault (List VarId × StmtId) :=
  match decl.body with
  | none => .error (.noBody (config.program.names.spelling decl.name))
  | some body =>
    if values.length = decl.params.length then
      (config.permission depth).map fun _ => (decl.params, body)
    else
      .error (.wrongArity (config.program.names.spelling decl.name) decl.params.length
        values.length)

/-- Either way the state stays as it is. -/
theorem returns_admission {decl : FuncDecl} (s : State)
    (found : config.program.func? (config.setup.implementation config.program callee) =
      some decl) :
    ((config.admissionScript callee values).run (config.carryOut levels)).Returns s
      (config.admission decl values s.stack.depth) s := by
  rw [carryOut_eq_answer, run_admissionScript, found]
  refine Action.returns_bind_iff.mpr (.inl ⟨decl, s, rfl, ?_⟩)
  unfold admission
  cases decl.body with
  | none => exact rfl
  | some body =>
    dsimp only [checkArity]
    by_cases arity : values.length = decl.params.length
    swap
    · rw [if_neg arity, if_neg arity]
      exact rfl
    rw [if_pos arity, if_pos arity]
    refine Action.returns_bind_iff.mpr (.inl ⟨(), s, rfl, Action.returns_bind_iff.mpr ?_⟩)
    have checked := config.returns_checkDepth s
    cases permitted : config.permission s.stack.depth with
    | ok _ => exact .inl ⟨(), s, permitted ▸ checked, rfl⟩
    | error fault => exact .inr ⟨fault, rfl, permitted ▸ checked⟩

theorem returns_admission_iff {result : Except Fault (List VarId × StmtId)} :
    ((config.admissionScript callee values).run (config.carryOut levels)).Returns s result s' ↔
      s' = s ∧ ∃ decl,
        config.program.func? (config.setup.implementation config.program callee) = some decl ∧
          config.admission decl values s.stack.depth = result := by
  constructor
  · intro returned
    cases found : config.program.func? (config.setup.implementation config.program callee) with
    | none =>
      rw [carryOut_eq_answer, run_admissionScript, found] at returned
      cases result <;> cases returned
    | some decl =>
      obtain ⟨same, same'⟩ := (returns_admission s found).unique returned
      exact ⟨same'.symm, decl, rfl, same⟩
  · rintro ⟨rfl, decl, found, rfl⟩
    exact returns_admission s' found

end Admission

end Config

/-! ### Jobs and their parts -/

/-- A request made in some state, to be carried out within a number of levels. -/
structure Job where
  levels : Nat
  request : Request
  state : State

/-- How a job ends. -/
def Job.Ends (config : Config) (job : Job) (result : Except Fault job.request.Answer)
    (s' : State) : Prop :=
  (config.carryOut job.levels job.request).Returns job.state result s'

namespace Job

variable {config : Config} {levels : Nat} {s s' : State}

theorem ends_evaluate_iff {id : ExprId} {result : Except Fault Value} :
    Ends config ⟨levels + 1, .evaluate id, s⟩ result s' ↔
      ((config.evaluationScript id).run (config.carryOut levels)).Returns s result s' :=
  .of_eq (congrArg (Action.Returns · s result s') (config.eval_eq_run levels id))

theorem ends_execute_iff {id : StmtId} {result : Except Fault Completion} :
    Ends config ⟨levels + 1, .execute id, s⟩ result s' ↔
      ((config.executionScript id).run (config.carryOut levels)).Returns s result s' :=
  .of_eq (congrArg (Action.Returns · s result s') (config.exec_eq_run levels id))

theorem ends_iterate_iff {cond : ExprId} {body : StmtId} {step : Option ExprId}
    {result : Except Fault Completion} :
    Ends config ⟨levels + 1, .iterate cond body step, s⟩ result s' ↔
      ((Config.iterationScript cond body step).run (config.carryOut levels)).Returns s result s' :=
  .of_eq (congrArg (Action.Returns · s result s') (config.loop_eq_run levels cond body step))

theorem ends_run_iff {result : Except Fault Value} :
    Ends config ⟨levels, .run, s⟩ result s' ↔
      (config.runScript.run (config.carryOut levels)).Returns s result s' :=
  .of_eq (congrArg (Action.Returns · s result s') (config.run_eq_run levels))

theorem ends_invoke_iff {callee : FuncId} {values : List Value} {type : TypeId}
    {result : Except Fault Value} :
    Ends config ⟨levels, .invoke callee values type, s⟩ result s' ↔
      Action.Returns
        (do
          let (params, body) ← (config.admissionScript callee values).run (config.carryOut levels)
          let ret ← config.activation (CellC.exec config levels) params values body
          pure (config.types.view type ret.cell)) s result s' :=
  .of_eq (congrArg (Action.Returns · s result s')
    (config.functionCall_eq_run levels callee values type))

end Job

namespace Config

/-- What a job asks for by itself. Each script is the rule for the job, by `eval_eq_run`,
`exec_eq_run`, `loop_eq_run`, `run_eq_run`, `functionCall_eq_run` and `boundBody_eq_run`. -/
inductive Part (config : Config) : Job → Job → Prop
  | evaluate {levels id s request t} :
      (config.evaluationScript id).Reaches (config.carryOut levels) s request t →
      Part config ⟨levels + 1, .evaluate id, s⟩ ⟨levels, request, t⟩
  | execute {levels id s request t} :
      (config.executionScript id).Reaches (config.carryOut levels) s request t →
      Part config ⟨levels + 1, .execute id, s⟩ ⟨levels, request, t⟩
  | iterate {levels cond body step s request t} :
      (iterationScript cond body step).Reaches (config.carryOut levels) s request t →
      Part config ⟨levels + 1, .iterate cond body step, s⟩ ⟨levels, request, t⟩
  | run {levels s request t} :
      config.runScript.Reaches (config.carryOut levels) s request t →
      Part config ⟨levels, .run, s⟩ ⟨levels, request, t⟩
  /-- Before a call pushes its frame. -/
  | admission {levels callee values type s request t} :
      (config.admissionScript callee values).Reaches (config.carryOut levels) s request t →
      Part config ⟨levels, .invoke callee values type, s⟩ ⟨levels, request, t⟩
  /-- While the frame of a call is there. -/
  | body {levels callee values type s params body u request t} :
      ((config.admissionScript callee values).run (config.carryOut levels)).Returns s
        (.ok (params, body)) u →
      (config.bodyScript params values body).Reaches (config.carryOut levels) u.entered request t →
      Part config ⟨levels, .invoke callee values type, s⟩ ⟨levels, request, t⟩

/-- What takes place in the course of a job, the job itself included. -/
def Contains (config : Config) : Job → Job → Prop :=
  Relation.ReflTransGen config.Part

end Config

end CellC
