import CellC.Proofs.Agreement

/-!
# Deriving how requests end

A request ends as the script of its rule does, and a script ends as its requests do, one after the
other. Each of them may need another number of levels, but with more levels at hand a request ends
as it did with fewer. So how a request ends can be derived from how its parts end, and the rules of
such derivations speak of no levels.

## Main definitions

* `Config.Finishes`: a script ends, at some number of levels
* `Config.bound`: the frame in which a body starts

## Main results

* `Config.carryOut_mono`: more levels keep every end
* `Config.Ends.then`, `Config.Ends.fails`: requests in sequence
* `Config.ends_evaluate_iff`, `Config.ends_execute_iff`: a rule ends as its script does
* `Config.evaluates_ok`, `Config.evaluates_error`: an expression evaluates as its form says
* `Config.ends_invoke_refused`, `Config.ends_invoke_permitted`: a call ends as its body does, if it
  is permitted
-/

namespace CellC

open CellC.Action (Approximates)

variable {α β : Type}

namespace Config

variable {config : Config} {s t u : State}

/-! ### Levels -/

/-- With more levels at hand a request ends as it did with fewer. -/
theorem carryOut_mono {levels more : Nat} (le : levels ≤ more) (request : Request) :
    Approximates (config.carryOut levels request) (config.carryOut more request) := by
  have below (request : Request) (rank : request.rank ≤ 2) :
      Approximates (config.carryOut levels request) (config.carryOut more request) := by
    cases request with
    | operate operation => exact .refl _
    | evaluate id => exact eval_mono le id
    | execute id => exact exec_mono le id
    | iterate cond body step => exact loop_mono le cond body step
    | invoke callee values type => exact approximates_functionCall (exec_mono le) callee values type
    | run => exact absurd rank (by simp [Request.rank])
  cases request with
  | operate | evaluate | execute | iterate | invoke => exact below _ (by simp [Request.rank])
  | run =>
    show Approximates (config.run levels) (config.run more)
    rw [run_eq_run, run_eq_run]
    exact config.asks_runScript.related (R := Approximates) (fun _ => .refl _) .bind below

/-- With more levels at hand a script ends as it did with fewer. -/
theorem script_mono {levels more : Nat} (le : levels ≤ more) (script : Script α) :
    Approximates (script.run (config.carryOut levels)) (script.run (config.carryOut more)) :=
  script.asks_true.related (R := Approximates) (fun _ => .refl _) .bind fun request _ =>
    carryOut_mono le request

/-! ### Scripts that end -/

/-- From `s` the script ends with `result` in `t`, at some number of levels and hence at any greater
one. -/
def Finishes (config : Config) (script : Script α) (s : State) (result : Except Fault α)
    (t : State) : Prop :=
  ∃ levels, (script.run (config.carryOut levels)).Returns s result t

theorem finishes_pure (a : α) (s : State) : config.Finishes (pure a) s (.ok a) s := ⟨0, rfl⟩

theorem finishes_request {request : Request} {result : Except Fault request.Answer} :
    config.Finishes (.request request) s result t ↔ config.Ends request s result t := by
  unfold Finishes Ends
  simp only [Script.run_request]

/-- A script that yields a value goes on with it. -/
theorem Finishes.bind {script : Script α} {next : α → Script β} {a : α} {result : Except Fault β}
    (first : config.Finishes script s (.ok a) t) (rest : config.Finishes (next a) t result u) :
    config.Finishes (script >>= next) s result u := by
  obtain ⟨levels, first⟩ := first
  obtain ⟨levels', rest⟩ := rest
  refine ⟨max levels levels', ?_⟩
  rw [Script.run_bind]
  exact Action.returns_bind_iff.mpr (.inl ⟨a, t,
    script_mono (Nat.le_max_left levels levels') script _ _ _ first,
    script_mono (Nat.le_max_right levels levels') (next a) _ _ _ rest⟩)

theorem Finishes.bind_error {script : Script α} {next : α → Script β} {fault : Fault}
    (failed : config.Finishes script s (.error fault) t) :
    config.Finishes (script >>= next) s (.error fault) t := by
  obtain ⟨levels, failed⟩ := failed
  refine ⟨levels, ?_⟩
  rw [Script.run_bind]
  exact Action.returns_bind_iff.mpr (.inr ⟨fault, rfl, failed⟩)

section Requests

variable {request : Request} {next : request.Answer → Script β} {result : Except Fault β}

/-- A script goes on with what it asked for. -/
theorem Ends.then {a : request.Answer} (first : config.Ends request s (.ok a) t)
    (rest : config.Finishes (next a) t result u) : config.Finishes (.ask request next) s result u :=
  (finishes_request.mpr first).bind rest

/-- A script goes wrong where a request of it does. -/
theorem Ends.fails {fault : Fault} (failed : config.Ends request s (.error fault) t) :
    config.Finishes (.ask request next) s (.error fault) t :=
  (finishes_request.mpr failed).bind_error

end Requests

/-- An operation ends at any number of levels. -/
theorem ends_operate {operation : Operation} {result : Except Fault operation.Answer}
    (performed : (config.perform operation).Returns s result t) :
    config.Ends (.operate operation) s result t := ⟨0, performed⟩

theorem ends_compute {outcome : Except Fault Cell} {cell : Cell} (computed : outcome = .ok cell)
    (s : State) : config.Ends (.operate (.compute outcome)) s (.ok cell) s := by
  rw [computed]
  exact ends_operate rfl

/-! ### Rules -/

theorem ends_evaluate_iff {id : ExprId} {result : Except Fault Value} :
    config.Ends (.evaluate id) s result t ↔
      config.Finishes (config.evaluationScript id) s result t := by
  constructor
  · rintro ⟨_ | levels, returned⟩
    · cases result <;> cases returned
    · exact ⟨levels, Job.ends_evaluate_iff.mp returned⟩
  · rintro ⟨levels, returned⟩
    exact ⟨levels + 1, Job.ends_evaluate_iff.mpr returned⟩

theorem ends_execute_iff {id : StmtId} {result : Except Fault Completion} :
    config.Ends (.execute id) s result t ↔
      config.Finishes (config.executionScript id) s result t := by
  constructor
  · rintro ⟨_ | levels, returned⟩
    · cases result <;> cases returned
    · exact ⟨levels, Job.ends_execute_iff.mp returned⟩
  · rintro ⟨levels, returned⟩
    exact ⟨levels + 1, Job.ends_execute_iff.mpr returned⟩

section Expressions

variable {id : ExprId} {expr : Expr} (found : config.program.expr? id = some expr)
include found

theorem ends_expr (s : State) : config.Ends (.operate (.expr id)) s (.ok expr) s := by
  show ∃ _, (Action.ofOption (config.program.expr? id)).Returns s (.ok expr) s
  rw [found]
  exact ⟨0, rfl⟩

/-- An expression evaluates to what its form says, and that is recorded. -/
theorem evaluates_ok {v : Value}
    (finished : config.Finishes (config.expressionScript id expr) s (.ok v) t) :
    config.Evaluates id s (.ok v) { t with stack := t.stack.modifyTop (·.record id v) } := by
  have recorded : config.Ends (.operate (.record id v)) t (.ok ())
      { t with stack := t.stack.modifyTop (·.record id v) } := ends_operate rfl
  exact ends_evaluate_iff.mpr ((ends_expr found s).then
    (finished.bind (recorded.then (finishes_pure v _))))

/-- An expression goes wrong as its form says. -/
theorem evaluates_error {fault : Fault}
    (failed : config.Finishes (config.expressionScript id expr) s (.error fault) t) :
    config.Evaluates id s (.error fault) t := by
  exact ends_evaluate_iff.mpr ((ends_expr found s).then failed.bind_error)

end Expressions

/-! ### Operators -/

namespace Evaluates

variable {id inner operand left right : ExprId} {type : TypeId} {v w : Value} {cell : Cell}

protected theorem «then» {next : Value → Script β} {result : Except Fault β}
    (first : config.Evaluates id s (.ok v) t) (rest : config.Finishes (next v) t result u) :
    config.Finishes (.ask (.evaluate id) next) s result u :=
  Ends.then first rest

protected theorem fails {next : Value → Script β} {fault : Fault}
    (failed : config.Evaluates id s (.error fault) t) :
    config.Finishes (.ask (.evaluate id) next) s (.error fault) t :=
  Ends.fails failed

/-- Parentheses pass on what is in them. -/
theorem paren (found : config.program.expr? id = some ⟨.paren inner, type⟩)
    (evaluated : config.Evaluates inner s (.ok v) t) :
    config.Evaluates id s (.ok v) { t with stack := t.stack.modifyTop (·.record id v) } :=
  evaluates_ok found (finishes_request.mpr evaluated)

/-- An operator that looks only at the cell of its operand is applied to it. -/
theorem unary {op : UnaryOp} (found : config.program.expr? id = some ⟨.unary op operand, type⟩)
    (evaluated : config.Evaluates operand s (.ok v) t) (applied : op.apply v.cell = .ok cell) :
    config.Evaluates id s (.ok (config.types.view type cell))
      { t with stack := t.stack.modifyTop (·.record id (config.types.view type cell)) } := by
  have computed : config.Ends (.operate (.compute (op.apply v.cell))) t (.ok cell) t :=
    ends_compute applied t
  apply evaluates_ok found
  cases op with
  | deref | addrOf => cases applied
  | neg | plus | bitNot | not =>
    exact evaluated.then (computed.then (finishes_pure _ t))

section Binary

variable {op : BinaryOp} (found : config.program.expr? id = some ⟨.binary op left right, type⟩)
  (supported : op.supported = true) (computes : op.assigns = false)
include found supported computes

/-- An operator is applied to the cells of its operands, of which the left one is evaluated
first. -/
theorem binary (first : config.Evaluates left s (.ok v) t)
    (second : config.Evaluates right t (.ok w) u)
    (applied : op.apply
        (config.scaled op (config.program.exprType left) (config.program.exprType right)
          v.cell w.cell).1
        (config.scaled op (config.program.exprType left) (config.program.exprType right)
          v.cell w.cell).2 = .ok cell) :
    config.Evaluates id s (.ok (config.types.view type cell))
      { u with stack := u.stack.modifyTop (·.record id (config.types.view type cell)) } := by
  apply evaluates_ok found
  show config.Finishes (config.binaryScript op left right type) s _ u
  rw [binaryScript, supported, computes]
  refine first.then ?_
  refine second.then ?_
  exact (ends_compute applied u).then (finishes_pure _ u)

/-- An operator goes wrong if its second operand does. -/
theorem binary_error {fault : Fault} (first : config.Evaluates left s (.ok v) t)
    (second : config.Evaluates right t (.error fault) u) :
    config.Evaluates id s (.error fault) u := by
  apply evaluates_error found
  show config.Finishes (config.binaryScript op left right type) s _ u
  rw [binaryScript, supported, computes]
  refine first.then ?_
  exact second.fails

end Binary

end Evaluates

/-! ### Calls -/

/-- The frame in which a body starts: the parameters are bound to arguments, each at its declared
type. -/
def bound (config : Config) (params : List VarId) (values : List Value) (frame : Frame) : Frame :=
  (params.zip values).foldl (fun frame pair =>
    frame.bind pair.1 (config.types.view (config.program.varType pair.1) pair.2.cell)) frame

theorem finishes_bindParamsScript {params : List VarId}
    (declared : ∀ var ∈ params, ∃ decl, config.program.var? var = some decl) (values : List Value)
    (s : State) :
    config.Finishes (config.bindParamsScript params values) s (.ok ())
      { s with stack := s.stack.modifyTop (config.bound params values) } := by
  induction params generalizing values s with
  | nil =>
    have same : s.stack.modifyTop (config.bound [] values) = s.stack := s.stack.modifyTop_id
    rw [same]
    exact finishes_pure () s
  | cons var vars ih =>
    cases values with
    | nil =>
      have same : s.stack.modifyTop (config.bound (var :: vars) []) = s.stack :=
        s.stack.modifyTop_id
      rw [same]
      exact finishes_pure () s
    | cons value values =>
      obtain ⟨decl, found⟩ := declared var List.mem_cons_self
      have looked : config.Ends (.operate (.var var)) s (.ok decl) s := by
        show ∃ _, (Action.ofOption (config.program.var? var)).Returns s (.ok decl) s
        rw [found]
        exact ⟨0, rfl⟩
      have rest := ih (fun var member => declared var (List.mem_cons_of_mem _ member)) values
        { s with
          stack := s.stack.modifyTop (·.bind var (config.types.view decl.type value.cell)) }
      have same : config.bound (var :: vars) (value :: values) =
          config.bound vars values ∘
            (·.bind var (config.types.view decl.type value.cell)) := by
        rw [← Program.varType_of_var? found]
        rfl
      rw [CallStack.modifyTop_modifyTop, ← same] at rest
      exact looked.then (Ends.then (ends_operate rfl) rest)

section Calls

variable {callee : FuncId} {values : List Value} {type : TypeId} {decl : FuncDecl} {body : StmtId}
  (found : config.program.func? (config.setup.implementation config.program callee) = some decl)
  (code : decl.body = some body) (arity : values.length = decl.params.length)
include code arity

theorem admission_eq_permission (depth : Nat) :
    config.admission decl values depth =
      (config.permission depth).map fun _ => (decl.params, body) := by
  unfold admission
  rw [code]
  exact if_pos arity

include found

/-- A call that is not permitted is refused before anything happens. -/
theorem ends_invoke_refused {fault : Fault}
    (refused : config.permission s.stack.depth = .error fault) :
    config.Ends (.invoke callee values type) s (.error fault) s := by
  have admitted : ((config.admissionScript callee values).run (config.carryOut 0)).Returns s
      (config.admission decl values s.stack.depth) s := returns_admission s found
  rw [admission_eq_permission code arity, refused] at admitted
  exact ⟨0, Job.ends_invoke_iff.mpr (Action.returns_bind_iff.mpr (.inr ⟨fault, rfl, admitted⟩))⟩

variable (type) in
/-- A call that is permitted ends as the body does, and pops its frame, which holds the value to
return. -/
theorem ends_invoke_permitted {outcome : Except Fault Unit}
    (permitted : config.permission s.stack.depth = .ok ())
    (ended : config.Finishes (config.bodyScript decl.params values body) s.entered outcome u) :
    ∃ frame, u.stack.calls = frame :: s.stack.calls ∧
      config.Ends (.invoke callee values type) s
        (outcome.map fun _ => config.types.view type frame.ret.cell)
        (Action.afterPop u frame s.stack.calls) := by
  obtain ⟨levels, ended⟩ := ended
  have admitted : ((config.admissionScript callee values).run (config.carryOut levels)).Returns s
      (config.admission decl values s.stack.depth) s := returns_admission s found
  rw [admission_eq_permission code arity, permitted] at admitted
  obtain ⟨frame, popped, returned⟩ := returns_activation ended
  refine ⟨frame, popped, levels, Job.ends_invoke_iff.mpr ?_⟩
  refine Action.returns_bind_iff.mpr (.inl ⟨_, s, admitted, Action.returns_bind_iff.mpr ?_⟩)
  cases outcome with
  | ok _ => exact .inl ⟨frame.ret, _, returned, rfl⟩
  | error fault => exact .inr ⟨fault, rfl, returned⟩

end Calls

end Config

end CellC
