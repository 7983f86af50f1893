import CellC.Proofs.Parts

/-!
# The depth limit is exact

If the depth of calls is limited, then at no moment are more calls active than permitted, and a call
that could run is refused just if it would be one too many.

## Main definitions

* `Job.Refused`: a call fails at the limit before its body starts

## Main results

* `depth_limit_exact`: as many calls as permitted can be active and no more
-/

namespace CellC

namespace Config

variable {config : Config} {levels n : Nat} {callee : FuncId} {values : List Value}
  {params : List VarId} {body : StmtId} {type : TypeId} {s s' u : State}

/-- Parameters are bound without a fault. -/
theorem ok_of_bindParams {result : Except Fault Unit}
    (returned : (config.bindParams params values).Returns s result s') : result = .ok () := by
  induction params generalizing values s with
  | nil => cases result <;> cases values <;> cases returned <;> rfl
  | cons var vars ih =>
    cases values with
    | nil => cases result <;> cases returned; rfl
    | cons value values =>
      obtain ⟨decl, t, -, rest⟩ | ⟨fault, -, failed⟩ := Action.returns_bind_iff.mp returned
      · obtain ⟨_, u, -, rest⟩ | ⟨fault, -, failed⟩ := Action.returns_bind_iff.mp rest
        · exact ih rest
        · cases failed
      · cases found : config.program.var? var <;> rw [found] at failed <;> cases failed

/-! ### Admission -/

theorem permission_eq (limited : config.depthLimit = some n) (depth : Nat) :
    config.permission depth = if n < depth then .error (.tooDeep n) else .ok () := by
  rw [permission, limited]

/-- What is refused is refused at greater depths, too. -/
theorem permission_of_le {depth more : Nat} {fault : Fault}
    (refused : config.permission depth = .error fault) (le : depth ≤ more) :
    config.permission more = .error fault := by
  cases limited : config.depthLimit with
  | none =>
    rw [permission, limited] at refused
    cases refused
  | some n =>
    rw [permission_eq limited] at refused ⊢
    by_cases deep : n < depth
    · rw [if_pos deep] at refused
      rwa [if_pos (Nat.lt_of_lt_of_le deep le)]
    · rw [if_neg deep] at refused
      cases refused

theorem admission_eq_tooDeep_iff (limited : config.depthLimit = some n) {decl : FuncDecl}
    {depth : Nat} :
    config.admission decl values depth = .error (.tooDeep n) ↔
      n < depth ∧ ∃ body, decl.body = some body ∧ values.length = decl.params.length := by
  unfold admission
  rw [permission_eq limited]
  cases decl.body with
  | none => simp
  | some body =>
    dsimp only
    by_cases arity : values.length = decl.params.length
    · by_cases deep : n < depth <;> simp [arity, deep, Except.map]
    · simp [arity]

theorem le_of_admission_eq_ok (limited : config.depthLimit = some n) {decl : FuncDecl}
    {depth : Nat} {admitted : List VarId × StmtId}
    (h : config.admission decl values depth = .ok admitted) : depth ≤ n := by
  by_contra deep
  unfold admission at h
  rw [permission_eq limited, if_pos (Nat.not_le.mp deep)] at h
  split at h
  · cases h
  split at h <;> cases h

/-- A call that is admitted is not one too many. -/
theorem length_calls_lt_of_admission (limited : config.depthLimit = some n)
    (admitted : ((config.admissionScript callee values).run (config.carryOut levels)).Returns s
      (.ok (params, body)) s') : s.stack.calls.length < n := by
  obtain ⟨-, decl, -, ok⟩ := returns_admission_iff.mp admitted
  exact le_of_admission_eq_ok limited ok

/-- A call is turned away at the limit if it could run otherwise and as many calls as permitted are
active. -/
theorem returns_admission_tooDeep_iff (limited : config.depthLimit = some n)
    (within : s.stack.calls.length ≤ n) :
    ((config.admissionScript callee values).run (config.carryOut levels)).Returns s
        (.error (.tooDeep n)) s' ↔
      s' = s ∧ s.stack.calls.length = n ∧ ∃ decl body,
        config.program.func? (config.setup.implementation config.program callee) = some decl ∧
          decl.body = some body ∧ values.length = decl.params.length := by
  have full : n < s.stack.depth ↔ s.stack.calls.length = n :=
    Nat.lt_succ_iff.trans ⟨Nat.le_antisymm within, fun same => Nat.le_of_eq same.symm⟩
  simp only [returns_admission_iff, admission_eq_tooDeep_iff limited, full]
  constructor
  · rintro ⟨same, decl, found, length, body, code, arity⟩
    exact ⟨same, length, decl, body, found, code, arity⟩
  · rintro ⟨same, length, decl, body, found, code, arity⟩
    exact ⟨same, decl, found, length, body, code, arity⟩

/-! ### Activations at any moment -/

/-- If no more calls are active than permitted when a job begins, then this is so when any part of
it begins. -/
theorem Part.within (limited : config.depthLimit = some n) {whole part : Job}
    (h : config.Part whole part) (start : whole.state.stack.calls.length ≤ n) :
    part.state.stack.calls.length ≤ n := by
  have kept {t t' : State} (undisturbed : t.stack.Undisturbed config.setup t'.stack)
      (start : t.stack.calls.length ≤ n) : t'.stack.calls.length ≤ n :=
    Nat.le_trans (Nat.le_of_eq undisturbed.length_calls) start
  cases h with
  | evaluate reaches => exact kept (undisturbed_reaches reaches) start
  | execute reaches => exact kept (undisturbed_reaches reaches) start
  | iterate reaches => exact kept (undisturbed_reaches reaches) start
  | run reaches => exact kept (undisturbed_reaches reaches) start
  | admission reaches => exact kept (undisturbed_reaches reaches) start
  | body admitted reaches =>
    obtain ⟨rfl, -⟩ := returns_admission_iff.mp admitted
    exact kept (undisturbed_reaches reaches) (length_calls_lt_of_admission limited admitted)

theorem Contains.within (limited : config.depthLimit = some n) {whole part : Job}
    (h : config.Contains whole part) (start : whole.state.stack.calls.length ≤ n) :
    part.state.stack.calls.length ≤ n := by
  induction h with
  | refl => exact start
  | tail _ step ih => exact step.within limited ih

end Config

/-! ### Refusal -/

/-- A job fails because of the limit `n` before any statement is executed in its course. -/
def Job.Refused (config : Config) (n : Nat) (job : Job) (s' : State) : Prop :=
  job.Ends config (.error (.tooDeep n)) s' ∧
    ∀ part, config.Part job part → ∀ id, part.request ≠ .execute id

namespace Config

variable {config : Config} {levels n : Nat} {callee : FuncId} {values : List Value}
  {params : List VarId} {body : StmtId} {type : TypeId} {s s' : State}

/-- A body that fails has begun to be executed. -/
theorem reaches_execute_of_body {fault : Fault}
    (failed : ((config.bodyScript params values body).run (config.carryOut levels)).Returns s
      (.error fault) s') :
    ∃ t, (config.bodyScript params values body).Reaches (config.carryOut levels) s
      (.execute body) t := by
  unfold bodyScript at failed ⊢
  rw [Script.run_bind] at failed
  obtain ⟨_, t, bound, -⟩ | ⟨fault, -, unbound⟩ := Action.returns_bind_iff.mp failed
  · exact ⟨t, .after bound .here⟩
  · rw [carryOut_eq_answer, run_bindParamsScript] at unbound
    cases ok_of_bindParams unbound

/-- A call that fails before its body begins was not admitted. -/
theorem admission_of_refused
    (refused : Job.Refused config n ⟨levels, .invoke callee values type, s⟩ s') :
    ((config.admissionScript callee values).run (config.carryOut levels)).Returns s
      (.error (.tooDeep n)) s' := by
  obtain ⟨ended, unexecuted⟩ := refused
  obtain ⟨⟨params, body⟩, u, admitted, rest⟩ | ⟨fault, same, failed⟩ :=
    Action.returns_bind_iff.mp (Job.ends_invoke_iff.mp ended)
  swap
  · cases same
    exact failed
  exfalso
  obtain ⟨ret, v, -, viewed⟩ | ⟨fault, -, failed⟩ := Action.returns_bind_iff.mp rest
  · cases viewed
  obtain ⟨outcome, v, frame, failed, -, -, same⟩ := body_of_returns_activation failed
  cases outcome with
  | ok _ => cases same
  | error fault' =>
    obtain ⟨t, reaches⟩ := reaches_execute_of_body failed
    exact unexecuted _ (.body admitted reaches) body rfl

/-- A call that is not admitted fails before its body begins. -/
theorem refused_of_admission
    (failed : ((config.admissionScript callee values).run (config.carryOut levels)).Returns s
      (.error (.tooDeep n)) s') :
    Job.Refused config n ⟨levels, .invoke callee values type, s⟩ s' := by
  refine ⟨Job.ends_invoke_iff.mpr (Action.returns_bind_iff.mpr (.inr ⟨_, rfl, failed⟩)), ?_⟩
  intro part h id
  cases h with
  | admission reaches =>
    rintro rfl
    exact Nat.one_ne_zero ((config.asks_admissionScript callee values).of_reaches reaches)
  | body admitted _ => cases (admitted.unique failed).1

end Config

/-! ### Interpreters -/

theorem Interpreter.depthLimit_of_start {program : Program} {settings : Settings}
    {interpreter : Interpreter}
    (started : Interpreter.start program settings = .ok interpreter) :
    interpreter.config.depthLimit = settings.depthLimit := by
  unfold Interpreter.start at started
  cases surveyed : program.setup with
  | error fault => rw [surveyed] at started; cases started
  | ok setup => rw [surveyed] at started; cases started; rfl

namespace Interpreter.Reachable

variable {program : Program} {settings : Settings} {interpreter : Interpreter}

/-- An interpreter keeps the limit for which it was started. -/
theorem depthLimit_eq (reachable : Reachable program settings interpreter) :
    interpreter.config.depthLimit = settings.depthLimit := by
  induction reachable with
  | start started => exact depthLimit_of_start started
  | run _ _ ih => exact ih
  | eval _ _ ih => exact ih
  | exec _ _ ih => exact ih

/-- Between requests no call is active. -/
theorem calls_eq_nil (reachable : Reachable program settings interpreter) :
    interpreter.state.stack.calls = [] := by
  have kept {levels : Nat} (request : Request) {interpreter : Interpreter} {s' : State}
      {result : Except Fault request.Answer}
      (returned : (interpreter.config.carryOut levels request).Returns interpreter.state result s')
      (start : interpreter.state.stack.calls = []) : s'.stack.calls = [] :=
    (Config.undisturbed_carryOut request returned).calls_eq_nil_iff.mpr start
  induction reachable with
  | start started => rw [state_of_start started]
  | run _ returned ih => exact kept .run returned ih
  | eval _ returned ih => exact kept (.evaluate _) returned ih
  | exec _ returned ih => exact kept (.execute _) returned ih

end Interpreter.Reachable

/-- If the number of active calls is limited to `n`, then no request on an interpreter, whatever
went before, leads to more: not in any state in which a job in its course begins or ends. Of the
calls in its course whose arguments have been evaluated, those are refused whose function has a
body, with as many parameters as there are arguments, while `n` calls are active; and to refuse a
call leaves the state as it is.

The jobs in its course are those that the evaluator comes to: `Config.Contains` is made from the
scripts of the rules, which `Config.eval_eq_run`, `Config.exec_eq_run`, `Config.loop_eq_run`,
`Config.functionCall_eq_run` and `Config.run_eq_run` prove to be the rules. -/
theorem depth_limit_exact {program : Program} {settings : Settings} {interpreter : Interpreter}
    {n : Nat} (limited : settings.depthLimit = some n)
    (reachable : Interpreter.Reachable program settings interpreter) {levels : Nat}
    {request : Request} {job : Job}
    (contains : interpreter.config.Contains ⟨levels, request, interpreter.state⟩ job) :
    job.state.stack.calls.length ≤ n ∧
    (∀ result s', job.Ends interpreter.config result s' → s'.stack.calls.length ≤ n) ∧
    ∀ callee values type, job.request = .invoke callee values type → ∀ s',
      job.Refused interpreter.config n s' ↔
        s' = job.state ∧ job.state.stack.calls.length = n ∧ ∃ decl body,
          program.func? (interpreter.config.setup.implementation program callee) = some decl ∧
            decl.body = some body ∧ values.length = decl.params.length := by
  have limited' := reachable.depthLimit_eq.trans limited
  have start : interpreter.state.stack.calls.length ≤ n := by
    rw [reachable.calls_eq_nil]
    exact Nat.zero_le n
  have within := contains.within limited' start
  refine ⟨within, fun result s' ended => ?_, ?_⟩
  · have undisturbed := Config.undisturbed_carryOut job.request ended
    exact Nat.le_trans (Nat.le_of_eq undisturbed.length_calls) within
  · obtain ⟨levels', _, s⟩ := job
    rintro callee values type rfl s'
    rw [← reachable.config_eq.1, ← Config.returns_admission_tooDeep_iff limited' within]
    exact ⟨Config.admission_of_refused, Config.refused_of_admission⟩

/-- A function that calls itself without end, and an entry point that calls it. -/
def endlessCalls : Program where
  names := ⟨⟨#["", "f", "main"]⟩⟩
  exprs := #[⟨.call ⟨0⟩ [], .int⟩, ⟨.call ⟨0⟩ [], .int⟩]
  stmts := #[.return (some ⟨0⟩), .return (some ⟨1⟩)]
  funcs := #[⟨⟨1⟩, [], .int, some ⟨0⟩⟩, ⟨⟨2⟩, [], .int, some ⟨1⟩⟩]
  topLevel := #[.function ⟨0⟩, .function ⟨1⟩]

open Script in
/-- Where one call is permitted, the first call within the entry point is refused. -/
theorem depth_limit_exact_endlessCalls : ∃ interpreter t,
    Interpreter.start endlessCalls { depthLimit := some 1 } = .ok interpreter ∧
      interpreter.config.Contains ⟨9, .run, interpreter.state⟩ ⟨7, .invoke ⟨0⟩ [] .int, t⟩ ∧
      Job.Refused interpreter.config 1 ⟨7, .invoke ⟨0⟩ [] .int, t⟩ t := by
  have call : ∃ interpreter t,
      Interpreter.start endlessCalls { depthLimit := some 1 } = .ok interpreter ∧
        interpreter.config.Contains ⟨9, .run, interpreter.state⟩ ⟨7, .invoke ⟨0⟩ [] .int, t⟩ ∧
        t.stack.calls.length = 1 ∧
        endlessCalls.func? (interpreter.config.setup.implementation endlessCalls ⟨0⟩) =
          some ⟨⟨1⟩, [], .int, some ⟨0⟩⟩ := ⟨_, _, rfl,
    .head (b := ⟨9, .invoke ⟨1⟩ [] .int, _⟩) (.run (reaches_of_requestAt (k := 4) (by rfl))) <|
    .head (b := ⟨9, .execute ⟨1⟩, _⟩) (.body (by rfl) (reaches_of_requestAt (k := 0) (by rfl))) <|
    .head (b := ⟨8, .evaluate ⟨1⟩, _⟩) (.execute (reaches_of_requestAt (k := 2) (by rfl))) <|
    .single (.evaluate (reaches_of_requestAt (k := 3) (by rfl))), by rfl, by rfl⟩
  obtain ⟨interpreter, t, started, contains, full, found⟩ := call
  have exact := depth_limit_exact rfl (.start started) contains
  exact ⟨interpreter, t, started, contains,
    (exact.2.2 _ _ _ rfl t).mpr ⟨rfl, full, _, _, found, rfl, rfl⟩⟩

end CellC
