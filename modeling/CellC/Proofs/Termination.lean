import CellC.Proofs.Cutoff
import CellC.Proofs.DepthLimit
import CellC.Proofs.Safety.Traps

/-!
# Programs without loops come to an end

Within one activation, expressions lead to expressions and statements to statements of smaller
numbers than their own. Only a call leads back up, to the body of its function, and it takes one of
the activations that the limit permits. So the number of activations that may still begin comes
first and the number of the node second, and the two together bound how deep a request can go.

## Main definitions

* `Program.LoopFree`: no statement is a loop
* `Request.need`: as many levels as a request needs at most
* `Job.Affordable`: a job has the levels that it needs

## Main results

* `Config.Part.affordable`: the parts of an affordable job are affordable
* `loop_free_requests_end`: without loops and with a depth limit every request ends
-/

namespace CellC

/-! ### Programs without loops -/

/-- No statement of the program is a loop. -/
def Program.LoopFree (program : Program) : Prop := ∀ stmt ∈ program.stmts, ¬stmt.IsLoop

instance (program : Program) : Decidable program.LoopFree :=
  inferInstanceAs (Decidable (∀ stmt ∈ program.stmts, ¬stmt.IsLoop))

/-! ### Smaller numbers -/

/-- If the reference is to an expression or a statement, its number is below the bound for these. -/
def Reference.Below (exprs stmts : Nat) : Reference → Prop
  | expr id => id.index < exprs
  | stmt id => id.index < stmts
  | var _ | func _ | type _ | name _ => True

/-- The request is neither a loop nor a run, and what it evaluates or executes is below the bound
for expressions or for statements. -/
def Request.Below (exprs stmts : Nat) : Request → Prop
  | operate _ | invoke _ _ _ => True
  | evaluate id => id.index < exprs
  | execute id => id.index < stmts
  | iterate _ _ _ | run => False

theorem grants_below (exprs stmts : Nat) :
    Grants (Reference.Below exprs stmts) (Request.Below exprs stmts) where
  operate _ _ := trivial
  evaluate _ below := below
  execute _ below := below
  invoke _ _ _ _ := trivial

theorem ExprForm.stmt_not_mem_references (form : ExprForm) (id : StmtId) :
    .stmt id ∉ form.references := by
  cases form with
  | sizeOf operand => cases operand <;> simp [references]
  | ident | intLit | charLit | strLit | paren | unary | binary | index | call | cast =>
    simp [references]

namespace Program.Intact

variable {program : Program} (intact : program.Intact)
include intact

/-- What an expression refers to is below the expression. -/
theorem below_of_expr {id : ExprId} {expr : Expr} (found : program.expr? id = some expr)
    {bound stmts : Nat} (below : id.index ≤ bound) :
    ∀ reference ∈ expr.form.references, reference.Below bound stmts := by
  intro reference member
  cases reference with
  | expr operand =>
    have smaller := (intact.exprs _ _ found _ member).2 operand rfl
    exact Nat.lt_of_lt_of_le smaller below
  | stmt child => exact absurd member (expr.form.stmt_not_mem_references child)
  | var | func | type | name => trivial

/-- What a statement refers to is below the statement if it is one. -/
theorem below_of_stmt {id : StmtId} {stmt : Stmt} (found : program.stmt? id = some stmt) :
    ∀ reference ∈ stmt.references, reference.Below program.exprs.size id.index := by
  intro reference member
  cases reference with
  | expr operand => exact intact.has_of_stmt found member
  | stmt child => exact (intact.stmts _ _ found _ member).2 child rfl
  | var | func | type | name => trivial

theorem below_passedByExprs (exprs stmts : Nat) :
    program.PassedByExprs (Reference.Below exprs stmts) :=
  fun _ _ below found => intact.below_of_expr found (Nat.le_of_lt below)

theorem below_passedByVars (stmts : Nat) :
    program.PassedByVars (Reference.Below program.exprs.size stmts) := by
  intro id decl _ found reference member
  cases reference with
  | expr init => exact intact.has_of_var found member
  | stmt child => simp [VarDecl.references] at member
  | var | func | type | name => trivial

end Program.Intact

/-! ### Levels that are enough -/

/-- The number of levels that the trees of one activation go down at most. -/
def Program.extent (program : Program) : Nat := program.exprs.size + program.stmts.size

/-- A number of levels that is enough for a request if at most `left` more activations may begin
one inside another. -/
def Request.need (program : Program) (left : Nat) : Request → Nat
  | operate _ | iterate _ _ _ => 0
  | evaluate id => id.index + 1 + left * program.extent
  | execute id => program.exprs.size + id.index + 1 + left * program.extent
  | invoke _ _ _ => left * program.extent
  | run => program.exprs.size + left * program.extent

theorem Request.Below.need_le {program : Program} {request : Request} {exprs stmts enough : Nat}
    (below : request.Below exprs stmts) (exprsFit : exprs ≤ enough)
    (stmtsFit : 0 < stmts → program.exprs.size + stmts ≤ enough) (left : Nat) :
    request.need program left ≤ enough + left * program.extent := by
  cases request with
  | operate => exact Nat.zero_le _
  | evaluate id => exact Nat.add_le_add_right (Nat.le_trans below exprsFit) _
  | execute id =>
    have lt : id.index < stmts := below
    exact Nat.add_le_add_right (by omega) _
  | invoke => exact Nat.le_add_left _ _
  | iterate | run => exact below.elim

theorem Request.need_le {program : Program} {request : Request} (fits : request.Fits program)
    (left : Nat) : request.need program left ≤ (left + 1) * program.extent := by
  rw [Nat.add_mul, Nat.one_mul, Nat.add_comm, Program.extent]
  cases request with
  | operate | iterate => exact Nat.zero_le _
  | evaluate id =>
    have has : id.index < program.exprs.size := fits _ List.mem_cons_self
    exact Nat.add_le_add_right (by omega) _
  | execute id =>
    have has : id.index < program.stmts.size := fits _ List.mem_cons_self
    exact Nat.add_le_add_right (by omega) _
  | invoke => exact Nat.le_add_left _ _
  | run => exact Nat.add_le_add_right (Nat.le_add_right _ _) _

/-- The job is no loop and has as many levels as it needs while `n` activations are permitted. -/
structure Job.Affordable (program : Program) (n : Nat) (job : Job) : Prop where
  unlooped : ∀ cond body step, job.request ≠ .iterate cond body step
  levels : job.request.need program (n - job.state.stack.calls.length) ≤ job.levels

theorem Request.Below.affordable {program : Program} {request : Request} {s : State}
    {exprs stmts enough left levels n : Nat} (below : request.Below exprs stmts)
    (exprsFit : exprs ≤ enough) (stmtsFit : 0 < stmts → program.exprs.size + stmts ≤ enough)
    (calls : n - s.stack.calls.length = left)
    (levelsFit : enough + left * program.extent ≤ levels) :
    Job.Affordable program n ⟨levels, request, s⟩ where
  unlooped := by
    rintro cond body step rfl
    exact below
  levels := by
    subst calls
    exact Nat.le_trans (below.need_le exprsFit stmtsFit _) levelsFit

namespace Config

variable {config : Config} {n : Nat} (intact : config.program.Intact)
  (leads : config.setup.Leads config.program) (loopFree : config.program.LoopFree)
  (limited : config.depthLimit = some n)
include intact loopFree limited

/-- What an affordable job asks for is affordable. -/
theorem Part.affordable {whole part : Job} (h : config.Part whole part)
    (start : whole.Affordable config.program n) : part.Affordable config.program n := by
  have levels := start.levels
  cases h with
  | @evaluate _ id s _ _ reaches =>
    have confined := confined_evaluationScript (grants_below id.index 0)
      (intact.below_passedByExprs _ _) trivial
      fun _ found => intact.below_of_expr found (Nat.le_refl _)
    have calls := (undisturbed_reaches reaches).length_calls
    refine (confined.of_reaches reaches).affordable (Nat.le_refl _) (by omega)
      (congrArg (n - ·) calls) ?_
    simp only [Request.need] at levels
    omega
  | @execute _ id s _ _ reaches =>
    have confined := confined_executionScript (grants_below config.program.exprs.size id.index)
      (intact.below_passedByVars _) trivial (fun _ found => intact.below_of_stmt found)
      fun _ found loop => absurd loop (loopFree _ (Array.mem_of_getElem? found))
    have calls := (undisturbed_reaches reaches).length_calls
    refine (confined.of_reaches reaches).affordable (Nat.le_add_right _ id.index)
      (fun _ => Nat.le_refl _) (congrArg (n - ·) calls) ?_
    simp only [Request.need] at levels
    omega
  | iterate => exact absurd rfl (start.unlooped _ _ _)
  | @run _ s _ _ reaches =>
    have confined := confined_runScript (grants_below config.program.exprs.size 0)
      (intact.below_passedByVars _) (fun _ _ => trivial) trivial
    have calls := (undisturbed_reaches reaches).length_calls
    exact (confined.of_reaches reaches).affordable (Nat.le_refl _) (by omega)
      (congrArg (n - ·) calls) levels
  | @admission _ callee values _ s _ _ reaches =>
    have confined : (config.admissionScript callee values).Confined config.program
        (Request.Below 0 0) := confined_admissionScript (grants_below 0 0) values trivial
    have calls := (undisturbed_reaches reaches).length_calls
    refine (confined.of_reaches reaches).affordable (Nat.le_refl 0) (by omega)
      (congrArg (n - ·) calls) ?_
    rw [Nat.zero_add]
    exact levels
  | @body _ _ values _ _ params body s _ t admitted reaches =>
    obtain ⟨-, has⟩ := has_of_admitted intact admitted
    have room := length_calls_lt_of_admission limited admitted
    obtain ⟨rfl, -⟩ := returns_admission_iff.mp admitted
    have confined : (config.bodyScript params values body).Confined config.program
        (Request.Below config.program.exprs.size config.program.stmts.size) :=
      confined_bodyScript (grants_below _ _) values (fun _ _ => trivial) has
    have calls : t.stack.calls.length = s.stack.calls.length + 1 :=
      (undisturbed_reaches reaches).length_calls
    obtain ⟨left, more⟩ := Nat.exists_eq_add_of_lt room
    have before : n - s.stack.calls.length = left + 1 := by omega
    have within : n - t.stack.calls.length = left := by omega
    refine (confined.of_reaches reaches).affordable (Nat.le_add_right _ _)
      (fun _ => Nat.le_refl _) within ?_
    simp only [Request.need, before, Nat.add_mul, Nat.one_mul] at levels
    exact (Nat.add_comm _ _).trans_le levels

theorem Contains.affordable {whole part : Job} (h : config.Contains whole part)
    (start : whole.Affordable config.program n) : part.Affordable config.program n := by
  induction h with
  | refl => exact start
  | tail _ step ih => exact step.affordable intact loopFree limited ih

include leads in
/-- An affordable job that refers to what is there ends. -/
theorem ends_of_affordable {job : Job} (fits : job.request.Fits config.program)
    (start : job.Affordable config.program n) : ∃ result s', job.Ends config result s' := by
  cases ran : (config.carryOut job.levels job.request).run job.state with
  | ok answer s' => exact ⟨.ok answer, s', ran⟩
  | error halt s' =>
    cases halt with
    | fault fault => exact ⟨.error fault, s', ran⟩
    | dangling => exact absurd ran (neverDangles_carryOut intact leads _ _ fits _ _)
    | exhausted =>
      -- Somewhere a job had no level left, but evaluations and executions need one.
      have grave (fault : Fault) : Halt.exhausted ≠ .fault fault := nofun
      obtain ⟨⟨_, request, t⟩, contains, ⟨missing, -⟩ | ⟨-, rfl, tree⟩⟩ :=
        source_of_halted grave ran
      · cases missing
      have affordable := Contains.affordable intact loopFree limited contains start
      have none := affordable.levels
      exfalso
      cases request with
      | evaluate | execute => simp [Request.need] at none
      | iterate => exact affordable.unlooped _ _ _ rfl
      | operate | invoke | run => cases tree

end Config

/-! ### Interpreters -/

/-- Let an orderly program have no loop and let the number of active calls be limited to `n`. Then
whatever an interpreter is asked to evaluate, execute or run, after whatever went before, ends with
a result or a fault, and with `n + 1` times as many levels as the program has nodes it is certain to
do so. -/
theorem loop_free_requests_end {program : Program} (orderly : program.Orderly)
    (loopFree : program.LoopFree) {settings : Settings} {n : Nat}
    (limited : settings.depthLimit = some n) {interpreter : Interpreter}
    (reachable : Interpreter.Reachable program settings interpreter) {request : Request}
    (fits : request.Fits program) (unlooped : ∀ cond body step, request ≠ .iterate cond body step) :
    ∃ result s', ∀ levels, (n + 1) * (program.exprs.size + program.stmts.size) ≤ levels →
      (interpreter.config.carryOut levels request).Returns interpreter.state result s' := by
  have intact := orderly.intact
  have limited' := reachable.depthLimit_eq.trans limited
  have idle := reachable.calls_eq_nil
  obtain ⟨rfl, set⟩ := reachable.config_eq
  have leads := Program.leads_of_setup intact set
  have affordable : Job.Affordable interpreter.config.program n
      ⟨(n + 1) * interpreter.config.program.extent, request, interpreter.state⟩ := by
    refine ⟨unlooped, ?_⟩
    rw [idle]
    exact Request.need_le fits n
  obtain ⟨result, s', ended⟩ :=
    Config.ends_of_affordable intact leads loopFree limited' fits affordable
  exact ⟨result, s', fun levels enough => Config.carryOut_mono enough request _ _ _ ended⟩

/-- The steps that build two functions that call one another without end, and an entry point that
calls the first of them. -/
def mutualSteps : List Construction :=
  [.function "ping" .int, .function "pong" .int, .function "main" .int, .expr (.call ⟨1⟩ []),
    .expr (.call ⟨0⟩ []), .stmt (.return (some ⟨0⟩)), .stmt (.return (some ⟨1⟩)), .body ⟨0⟩ ⟨0⟩,
    .body ⟨1⟩ ⟨1⟩, .body ⟨2⟩ ⟨1⟩]

/-- The program with these functions. -/
def mutualCalls : Program where
  names := ⟨⟨#["", "ping", "pong", "main"]⟩⟩
  exprs := #[⟨.call ⟨1⟩ [], .int⟩, ⟨.call ⟨0⟩ [], .int⟩]
  stmts := #[.return (some ⟨0⟩), .return (some ⟨1⟩)]
  funcs := #[⟨⟨1⟩, [], .int, some ⟨0⟩⟩, ⟨⟨2⟩, [], .int, some ⟨1⟩⟩, ⟨⟨3⟩, [], .int, some ⟨1⟩⟩]
  topLevel := #[.function ⟨0⟩, .function ⟨1⟩, .function ⟨2⟩]

/-- With three calls permitted a run ends at the limit. -/
theorem loop_free_requests_end_mutualCalls :
    ∃ interpreter s', mutualCalls.Orderly ∧ mutualCalls.LoopFree ∧
      Interpreter.start mutualCalls { depthLimit := some 3 } = .ok interpreter ∧
      ∀ levels, 16 ≤ levels → (interpreter.config.carryOut levels .run).Returns interpreter.state
        (.error (.tooDeep 3)) s' := by
  have steps : (Program.ofConstructions mutualSteps).2 = mutualCalls := by decide +kernel
  have fit : Program.StepsOrderly {} mutualSteps := by decide +kernel
  have orderly : mutualCalls.Orderly := steps ▸ Program.orderly_ofConstructions fit
  have loopFree : mutualCalls.LoopFree := by decide
  have ran : ∃ interpreter s',
      Interpreter.start mutualCalls { depthLimit := some 3 } = .ok interpreter ∧
      (interpreter.config.carryOut 16 .run).Returns interpreter.state (.error (.tooDeep 3)) s' :=
    ⟨_, _, rfl, rfl⟩
  obtain ⟨interpreter, s', started, run⟩ := ran
  have fits : Request.run.Fits mutualCalls := nofun
  obtain ⟨result, s'', ended⟩ :=
    loop_free_requests_end orderly loopFree rfl (.start started) fits nofun
  obtain ⟨rfl, rfl⟩ := (ended 16 (Nat.le_refl 16)).unique run
  exact ⟨interpreter, _, orderly, loopFree, started, ended⟩

end CellC
