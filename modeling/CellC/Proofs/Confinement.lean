import CellC.Proofs.Building.Intact
import CellC.Proofs.Parts

/-!
# What rules ask for

Everything that a rule asks for comes from the node at hand, from what is under the parentheses of
an assignment's target, or from the declaration of a variable. So what holds of all that these refer
to is true of every request that the rule makes.

## Main definitions

* `Request.references`: what a request refers to
* `Script.Confined`: what is true of all requests of a script, as long as look-ups yield what is
  there
* `Grants`: what holds of references, and what is true of requests for that reason

## Main results

* `Config.confined_evaluationScript`, `Config.confined_executionScript`: what evaluations and
  executions ask for
* `Config.confined_bodyScript`, `Config.confined_runScript`: what activations and runs ask for
-/

namespace CellC

variable {α β : Type}

/-! ### Requests and what they refer to -/

/-- What an operation refers to. A variable that has no value is named in the fault. -/
def Operation.references : Operation → List Reference
  | expr id => [.expr id]
  | stmt id => [.stmt id]
  | var id => [.var id]
  | func id => [.func id]
  | varValue id => [.var id]
  | fail _ | compute _ | note _ | assignVar _ _ | bind _ _ | record _ _ | returning _ | load _ _
  | store _ _ _ | newArray _ | allocate _ | release _ | println _ | read | checkDepth
  | globalsReady | setGlobalsReady => []

/-- What a request refers to. -/
def Request.references : Request → List Reference
  | operate operation => operation.references
  | evaluate id => [.expr id]
  | execute id => [.stmt id]
  | iterate cond body step => .expr cond :: .stmt body :: step.toList.map .expr
  | invoke callee _ _ => [.func callee]
  | run => []

/-- The answer to a look-up is what is there. -/
def Request.Answered (program : Program) : (request : Request) → request.Answer → Prop
  | operate (.expr id), expr => program.expr? id = some expr
  | operate (.stmt id), stmt => program.stmt? id = some stmt
  | operate (.var id), decl => program.var? id = some decl
  | operate (.func id), decl => program.func? id = some decl
  | _, _ => True

/-- A look-up that answers found what it looked for. -/
theorem Action.ofOption_eq_some {node : Option α} {a : α} {s t : State}
    (returned : (ofOption node).Returns s (.ok a) t) : node = some a := by
  cases node <;> cases returned
  rfl

/-- What the machine answers to a request is what the request says its answer is in the program. -/
theorem Config.answered {config : Config} {levels : Nat} {request : Request}
    {answer : request.Answer} {s t : State}
    (returned : (config.carryOut levels request).Returns s (.ok answer) t) :
    request.Answered config.program answer := by
  unfold Request.Answered
  split
  · exact Action.ofOption_eq_some returned
  · exact Action.ofOption_eq_some returned
  · exact Action.ofOption_eq_some returned
  · exact Action.ofOption_eq_some returned
  · trivial

/-! ### Confined scripts -/

namespace Script

/-- Every request of the script has `P`, as long as look-ups yield what is there. -/
def Confined (program : Program) (P : Request → Prop) : Script α → Prop
  | done _ => True
  | ask request next =>
    P request ∧ ∀ answer, request.Answered program answer → (next answer).Confined program P

namespace Confined

variable {program : Program} {config : Config} {levels : Nat} {s t : State} {P : Request → Prop}

/-- A script is confined when its first part is and so is every continuation of it. -/
theorem bind {script : Script α} {next : α → Script β} (h : script.Confined program P)
    (rest : ∀ a, (next a).Confined program P) : (script >>= next).Confined program P := by
  induction script with
  | done a => exact rest a
  | ask request next' ih =>
    exact ⟨h.1, fun answer answered => ih answer (h.2 answer answered)⟩

/-- Every request a run of a confined script reaches has the property the script is confined to. -/
theorem of_reaches {script : Script α} (h : script.Confined config.program P) {request : Request}
    (reaches : script.Reaches (config.carryOut levels) s request t) : P request := by
  induction reaches with
  | here => exact h.1
  | later returned _ ih => exact ih (h.2 _ (Config.answered returned))

/-- A single request is confined when it has the property itself. -/
theorem request {asked : Request} (h : P asked) : (Script.request asked).Confined program P :=
  ⟨h, fun _ _ => trivial⟩

/-- What follows a look-up is told what is there. -/
theorem lookup {operation : Operation} (h : P (.operate operation))
    {next : operation.Answer → Script β}
    (rest : ∀ answer, Request.Answered program (.operate operation) answer →
      (next answer).Confined program P) :
    (Script.operate operation >>= next).Confined program P :=
  ⟨h, rest⟩

end Confined

end Script

/-- Requests have `P` if `H` holds of all that they refer to. Of loops and runs nothing is said. -/
structure Grants (H : Reference → Prop) (P : Request → Prop) : Prop where
  operate : ∀ operation, (∀ reference ∈ operation.references, H reference) →
    P (.operate operation)
  evaluate : ∀ id, H (.expr id) → P (.evaluate id)
  execute : ∀ id, H (.stmt id) → P (.execute id)
  invoke : ∀ callee values type, H (.func callee) → P (.invoke callee values type)

namespace Grants

variable {program : Program} {H : Reference → Prop} {P : Request → Prop} (grants : Grants H P)
include grants

/-- An operation that refers to nothing. -/
theorem quiet {operation : Operation} (none : operation.references = []) :
    (Script.operate operation).Confined program P :=
  .request (grants.operate operation fun reference member => by
    rw [none] at member
    cases member)

/-- An operation that refers to one thing. -/
theorem single {operation : Operation} {reference : Reference}
    (only : operation.references = [reference]) (holds : H reference) : P (.operate operation) :=
  grants.operate operation fun other member => by
    rw [only] at member
    obtain rfl := List.mem_singleton.mp member
    exact holds

theorem fail (fault : Fault) : (Script.fail fault : Script α).Confined program P :=
  ⟨grants.operate _ fun _ member => absurd member List.not_mem_nil, nofun⟩

/-- Asking for the value of an expression that is in hand. -/
theorem evaluated {id : ExprId} (holds : H (.expr id)) :
    (Script.evaluate id).Confined program P :=
  .request (grants.evaluate id holds)

/-- Asking for the execution of a statement that is in hand. -/
theorem executed {id : StmtId} (holds : H (.stmt id)) :
    (Script.execute id).Confined program P :=
  .request (grants.execute id holds)

end Grants

/-! ### Rules -/

/-- `H` holds of what an expression refers to if it holds of the expression. -/
def Program.PassedByExprs (program : Program) (H : Reference → Prop) : Prop :=
  ∀ ⦃id expr⦄, H (.expr id) → program.expr? id = some expr →
    ∀ reference ∈ expr.form.references, H reference

/-- `H` holds of what a variable's declaration refers to if it holds of the variable. -/
def Program.PassedByVars (program : Program) (H : Reference → Prop) : Prop :=
  ∀ ⦃id decl⦄, H (.var id) → program.var? id = some decl →
    ∀ reference ∈ decl.references, H reference

/-- The statement is a loop. -/
def Stmt.IsLoop : Stmt → Prop
  | .while _ _ | .for _ _ _ _ => True
  | decl _ | expr _ | branch _ _ _ | .return _ | compound _ | .break | .continue => False

instance : DecidablePred Stmt.IsLoop
  | .while _ _ | .for _ _ _ _ => inferInstanceAs (Decidable True)
  | .decl _ | .expr _ | .branch _ _ _ | .return _ | .compound _ | .break | .continue =>
    inferInstanceAs (Decidable False)

namespace Config

variable {config : Config} {H : Reference → Prop} {P : Request → Prop} (grants : Grants H P)
include grants

open Script (Confined)

/-! ### Expressions -/

/-- The address of an element asks for the base and the index only. -/
theorem confined_subscriptScript {base index : ExprId} (holds : H (.expr base))
    (holds' : H (.expr index)) :
    (config.subscriptScript base index).Confined config.program P :=
  (grants.evaluated holds).bind fun _ => (grants.evaluated holds').bind fun _ => trivial

theorem confined_unaryScript (op : UnaryOp) {operand : ExprId} (holds : H (.expr operand))
    (type : TypeId) : (config.unaryScript op operand type).Confined config.program P := by
  cases op with
  | addrOf => exact grants.fail _
  | deref => exact (grants.evaluated holds).bind fun _ => grants.quiet rfl
  | neg | plus | bitNot | not =>
    exact (grants.evaluated holds).bind fun _ => Confined.bind (grants.quiet rfl) fun _ => trivial

/-- An assignment asks for its value and for what its target, without parentheses, is made of. -/
theorem confined_assignScript (exprs : config.program.PassedByExprs H) {target value : ExprId}
    (holds : H (.expr target)) (holds' : H (.expr value)) :
    (config.assignScript target value).Confined config.program P := by
  have under : H (.expr (config.program.unparen target)) :=
    Program.holds_unparen (fun holds found => exprs holds found _ List.mem_cons_self) holds
  refine (grants.evaluated holds').bind fun v => ?_
  refine Confined.lookup (grants.single rfl under) fun (node : Expr) found => ?_
  have parts := exprs under found
  have recorded (stored : Value) : Confined config.program P (do
      Script.operate (.record (config.program.unparen target) stored)
      pure stored) := Confined.bind (grants.quiet rfl) fun _ => trivial
  obtain ⟨form, type⟩ := node
  cases form with
  | ident var => exact Confined.bind (grants.quiet rfl) fun _ => recorded _
  | index base position =>
    have subscript := config.confined_subscriptScript grants (parts (.expr base) List.mem_cons_self)
      (parts (.expr position) (by simp [ExprForm.references]))
    exact subscript.bind fun _ => Confined.bind (grants.quiet rfl) fun _ => recorded _
  | unary op operand =>
    cases op with
    | deref =>
      exact (grants.evaluated (parts (.expr operand) List.mem_cons_self)).bind fun _ =>
        Confined.bind (grants.quiet rfl) fun _ => recorded _
    | neg | plus | bitNot | not | addrOf => exact (grants.fail _).bind fun _ => recorded _
  | intLit | charLit | strLit | paren | sizeOf | binary | call | cast =>
    exact (grants.fail _).bind fun _ => recorded _

/-- An operation asks for its operands, whichever of them it gets to. -/
theorem confined_binaryScript (exprs : config.program.PassedByExprs H) (op : BinaryOp)
    {left right : ExprId} (holds : H (.expr left)) (holds' : H (.expr right)) (type : TypeId) :
    (config.binaryScript op left right type).Confined config.program P := by
  unfold binaryScript
  split
  · exact grants.fail _
  split
  · exact confined_assignScript grants exprs holds holds'
  · refine (grants.evaluated holds).bind fun _ => (grants.evaluated holds').bind fun _ => ?_
    exact Confined.bind (grants.quiet rfl) fun _ => trivial

/-- The arguments of a call are asked for one by one, each of them in hand. -/
theorem confined_argsScript {args : List ExprId} (holds : ∀ expr ∈ args, H (.expr expr)) :
    (argsScript args).Confined config.program P := by
  induction args with
  | nil => trivial
  | cons expr args ih =>
    refine (grants.evaluated (holds expr List.mem_cons_self)).bind fun _ => ?_
    exact (ih fun other member => holds other (List.mem_cons_of_mem _ member)).bind fun _ => trivial

theorem confined_arityScript (name : String) (expected got : Nat) :
    (arityScript name expected got).Confined config.program P := by
  unfold arityScript
  split
  · trivial
  · exact grants.fail _

theorem confined_readScript (type : TypeId) :
    (config.readScript type).Confined config.program P := by
  refine Confined.bind (grants.quiet rfl) fun (n : Option Cell) => ?_
  cases n with
  | some n => trivial
  | none => exact Confined.bind (grants.quiet rfl) fun _ => trivial

theorem confined_primitiveScript (primitive : Primitive) (values : List Value) (type : TypeId) :
    (config.primitiveScript primitive values type).Confined config.program P := by
  refine (config.confined_arityScript grants _ _ _).bind fun _ => ?_
  cases primitive with
  | read =>
    dsimp only
    split
    · exact Confined.bind (grants.quiet rfl) fun _ => config.confined_readScript grants type
    · exact config.confined_readScript grants type
  | print | allocate | free => exact Confined.bind (grants.quiet rfl) fun _ => trivial

/-- A call asks for its arguments and for its callee. -/
theorem confined_callScript (id : ExprId) {callee : FuncId} {args : List ExprId}
    (holds : H (.func callee)) (holds' : ∀ expr ∈ args, H (.expr expr)) (type : TypeId) :
    (config.callScript id callee args type).Confined config.program P := by
  refine Confined.bind (grants.quiet rfl) fun _ => ?_
  refine (confined_argsScript grants holds').bind fun values => ?_
  refine Confined.bind (grants.quiet rfl) fun _ => ?_
  cases config.setup.primitive? callee with
  | some primitive => exact config.confined_primitiveScript grants primitive values type
  | none => exact .request (grants.invoke callee values type holds)

/-- What the rule for an expression asks for. -/
theorem confined_expressionScript (exprs : config.program.PassedByExprs H) (id : ExprId)
    {expr : Expr} (holds : ∀ reference ∈ expr.form.references, H reference) :
    (config.expressionScript id expr).Confined config.program P := by
  obtain ⟨form, type⟩ := expr
  cases form with
  | ident var => exact .request (grants.single rfl (holds (.var var) List.mem_cons_self))
  | intLit | charLit | sizeOf => trivial
  | strLit => exact grants.fail _
  | paren inner => exact grants.evaluated (holds (.expr inner) List.mem_cons_self)
  | unary op operand =>
    exact config.confined_unaryScript grants op (holds (.expr operand) List.mem_cons_self) type
  | binary op left right =>
    exact confined_binaryScript grants exprs op (holds (.expr left) List.mem_cons_self)
      (holds (.expr right) (by simp [ExprForm.references])) type
  | index base position =>
    exact (config.confined_subscriptScript grants (holds (.expr base) List.mem_cons_self)
      (holds (.expr position) (by simp [ExprForm.references]))).bind fun _ => grants.quiet rfl
  | call callee args =>
    exact config.confined_callScript grants id (holds (.func callee) List.mem_cons_self)
      (fun expr member =>
        holds (.expr expr) (List.mem_cons_of_mem _ (List.mem_map_of_mem member))) type
  | cast _ target operand =>
    exact grants.evaluated (holds (.expr operand) (by simp [ExprForm.references]))

/-- An evaluation stays with what is passed on when everything its node refers to is. -/
theorem confined_evaluationScript (exprs : config.program.PassedByExprs H) {id : ExprId}
    (here : P (.operate (.expr id)))
    (holds : ∀ expr, config.program.expr? id = some expr →
      ∀ reference ∈ expr.form.references, H reference) :
    (config.evaluationScript id).Confined config.program P := by
  refine Confined.lookup here fun (expr : Expr) found => ?_
  refine (confined_expressionScript grants exprs id (holds expr found)).bind fun _ => ?_
  exact Confined.bind (grants.quiet rfl) fun _ => trivial

/-! ### Statements -/

/-- A declaration asks for the initializer of its variable only. -/
theorem confined_declareScript (vars : config.program.PassedByVars H) {var : VarId}
    (holds : H (.var var)) : (config.declareScript var).Confined config.program P := by
  refine Confined.lookup (grants.single rfl holds) fun (decl : VarDecl) found => ?_
  have start : (config.startScript decl).Confined config.program P := by
    unfold startScript
    split
    · exact grants.quiet rfl
    · split
      · next init given =>
        have there : H (.expr init) := vars holds found _ (by simp [VarDecl.references, given])
        exact (grants.evaluated there).bind fun _ => trivial
      · trivial
  exact start.bind fun _ => Confined.bind (grants.quiet rfl) fun _ => grants.quiet rfl

theorem confined_declareAllScript (passed : config.program.PassedByVars H) {vars : List VarId}
    (holds : ∀ var ∈ vars, H (.var var)) :
    (config.declareAllScript vars).Confined config.program P := by
  induction vars with
  | nil => trivial
  | cons var vars ih =>
    have first := confined_declareScript grants passed (holds var List.mem_cons_self)
    exact first.bind fun _ => ih fun other member => holds other (List.mem_cons_of_mem _ member)

/-- A compound statement asks for its own statements only. -/
theorem confined_compoundScript {stmts : List StmtId} (holds : ∀ stmt ∈ stmts, H (.stmt stmt)) :
    (compoundScript stmts).Confined config.program P := by
  induction stmts with
  | nil => trivial
  | cons stmt stmts ih =>
    refine (grants.executed (holds stmt List.mem_cons_self)).bind fun completion => ?_
    cases completion with
    | returned value => trivial
    | completed => exact ih fun other member => holds other (List.mem_cons_of_mem _ member)

theorem confined_branchScript {cond : ExprId} {yes : StmtId} {no : Option StmtId}
    (holds : H (.expr cond)) (first : H (.stmt yes))
    (second : ∀ stmt, no = some stmt → H (.stmt stmt)) :
    (branchScript cond yes no).Confined config.program P := by
  refine (grants.evaluated holds).bind fun value => ?_
  split
  · exact grants.executed first
  · cases no with
    | some stmt => exact grants.executed (second stmt rfl)
    | none => trivial

theorem confined_returnScript {value : Option ExprId}
    (holds : ∀ expr, value = some expr → H (.expr expr)) :
    (returnScript value).Confined config.program P := by
  have rest (value : Value) : Confined config.program P (do
      Script.operate (.returning value)
      pure (Completion.returned value)) := Confined.bind (grants.quiet rfl) fun _ => trivial
  cases value with
  | some expr => exact (grants.evaluated (holds expr rfl)).bind rest
  | none => exact rest .zero

/-- A turn of a loop asks for its parts and for the next turn of the same loop. -/
theorem confined_iterationScript {cond : ExprId} {body : StmtId} {step : Option ExprId}
    (holds : H (.expr cond)) (holdsBody : H (.stmt body))
    (holdsStep : ∀ expr, step = some expr → H (.expr expr)) (next : P (.iterate cond body step)) :
    (iterationScript cond body step).Confined config.program P := by
  refine (grants.evaluated holds).bind fun value => ?_
  split
  · refine (grants.executed holdsBody).bind fun completion => ?_
    cases completion with
    | returned value => trivial
    | completed =>
      cases step with
      | some expr =>
        exact (grants.evaluated (holdsStep expr rfl)).bind fun _ => .request next
      | none => exact .request next
  · trivial

theorem confined_forScript {start : Option StmtId} {cond step : Option ExprId} {body : StmtId}
    (holds : ∀ stmt, start = some stmt → H (.stmt stmt))
    (loop : ∀ expr, cond = some expr → P (.iterate expr body step)) :
    (forScript start cond step body).Confined config.program P := by
  have rest (completion : Completion) :
      (afterStartScript cond step body completion).Confined config.program P := by
    cases completion with
    | returned value => trivial
    | completed =>
      cases cond with
      | some cond => exact .request (loop cond rfl)
      | none => exact grants.fail _
  cases start with
  | some stmt => exact (grants.executed (holds stmt rfl)).bind rest
  | none => exact rest .completed

/-- What the rule for a statement asks for. -/
theorem confined_statementScript (vars : config.program.PassedByVars H) {stmt : Stmt}
    (holds : ∀ reference ∈ stmt.references, H reference)
    (loops : stmt.IsLoop → ∀ cond body step, H (.expr cond) → H (.stmt body) →
      (∀ expr, step = some expr → H (.expr expr)) → P (.iterate cond body step)) :
    (config.statementScript stmt).Confined config.program P := by
  cases stmt with
  | decl vars' =>
    exact (confined_declareAllScript grants vars fun var member =>
      holds (.var var) (List.mem_map_of_mem member)).bind fun _ => trivial
  | expr expr =>
    exact (grants.evaluated (holds (.expr expr) List.mem_cons_self)).bind fun _ => trivial
  | branch cond yes no =>
    exact confined_branchScript grants (holds (.expr cond) List.mem_cons_self)
      (holds (.stmt yes) (by simp [Stmt.references]))
      fun stmt given => holds (.stmt stmt) (by simp [Stmt.references, given])
  | «while» cond body =>
    exact .request (loops trivial cond body none (holds (.expr cond) List.mem_cons_self)
      (holds (.stmt body) (by simp [Stmt.references])) nofun)
  | «for» start cond step body =>
    exact confined_forScript grants
      (fun stmt given => holds (.stmt stmt) (by simp [Stmt.references, given]))
      fun expr given => loops trivial expr body step
        (holds (.expr expr) (by simp [Stmt.references, given]))
        (holds (.stmt body) (by simp [Stmt.references]))
        fun expr given => holds (.expr expr) (by simp [Stmt.references, given])
  | «return» value =>
    exact confined_returnScript grants fun expr given =>
      holds (.expr expr) (by simp [Stmt.references, given])
  | compound stmts =>
    exact confined_compoundScript grants fun stmt member =>
      holds (.stmt stmt) (List.mem_map_of_mem member)
  | «break» | «continue» => exact grants.fail _

/-- An execution stays with what is passed on when everything its node refers to is, and when the
turns of its loop are allowed. -/
theorem confined_executionScript (vars : config.program.PassedByVars H) {id : StmtId}
    (here : P (.operate (.stmt id)))
    (holds : ∀ stmt, config.program.stmt? id = some stmt →
      ∀ reference ∈ stmt.references, H reference)
    (loops : ∀ stmt, config.program.stmt? id = some stmt → stmt.IsLoop →
      ∀ cond body step, H (.expr cond) → H (.stmt body) →
        (∀ expr, step = some expr → H (.expr expr)) → P (.iterate cond body step)) :
    (config.executionScript id).Confined config.program P := by
  refine Confined.lookup here fun (stmt : Stmt) found => ?_
  refine Confined.bind (grants.quiet rfl) fun _ => ?_
  exact confined_statementScript grants vars (holds stmt found) (loops stmt found)

/-! ### Calls and runs -/

/-- Admission to a call asks for the declaration that runs and nothing else. -/
theorem confined_admissionScript {callee : FuncId} (values : List Value)
    (holds : H (.func (config.setup.implementation config.program callee))) :
    (config.admissionScript callee values).Confined config.program P := by
  refine Confined.lookup (grants.single rfl holds) fun (decl : FuncDecl) _ => ?_
  obtain ⟨name, params, ret, body⟩ := decl
  cases body with
  | none => exact grants.fail _
  | some body =>
    refine (config.confined_arityScript grants _ _ _).bind fun _ => ?_
    exact Confined.bind (grants.quiet rfl) fun _ => trivial

/-- The body of a call asks for the parameters and for the body statement. -/
theorem confined_bodyScript {params : List VarId} (values : List Value) {body : StmtId}
    (holds : ∀ var ∈ params, H (.var var)) (holds' : H (.stmt body)) :
    (config.bodyScript params values body).Confined config.program P := by
  have bindings (pairs : List (VarId × Value)) (holds : ∀ pair ∈ pairs, H (.var pair.1)) :
      Confined config.program P
        (pairs.foldr (fun pair rest => do
          let decl ← Script.operate (.var pair.1)
          Script.operate (.bind pair.1 (config.types.view decl.type pair.2.cell))
          rest) (pure ())) := by
    induction pairs with
    | nil => trivial
    | cons pair pairs ih =>
      refine Confined.lookup (grants.single rfl (holds pair List.mem_cons_self)) fun decl _ => ?_
      refine Confined.bind (grants.quiet rfl) fun _ => ?_
      exact ih fun other member => holds other (List.mem_cons_of_mem _ member)
  have bound := bindings (params.zip values) fun pair member => holds _ (List.of_mem_zip member).1
  exact bound.bind fun _ => (grants.executed holds').bind fun _ => trivial

/-- A whole run asks for the file-scope variables and for the entry point. -/
theorem confined_runScript (vars : config.program.PassedByVars H)
    (globals : ∀ var ∈ config.setup.globals, H (.var var))
    (entry : H (.func config.setup.entry)) : config.runScript.Confined config.program P := by
  have ready : config.readyScript.Confined config.program P := by
    refine Confined.bind (grants.quiet rfl) fun (ready : Bool) => ?_
    cases ready with
    | true => trivial
    | false =>
      exact (confined_declareAllScript grants vars globals).bind fun _ => grants.quiet rfl
  refine Confined.bind (grants.quiet rfl) fun _ => ready.bind fun _ => ?_
  refine Confined.lookup (grants.single rfl entry) fun (decl : FuncDecl) _ => ?_
  refine Confined.bind (.request (grants.invoke _ _ _ entry)) fun _ => ?_
  exact Confined.bind (grants.quiet rfl) fun _ => trivial

end Config

end CellC
