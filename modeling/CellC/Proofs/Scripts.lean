import CellC.Proofs.Correspondence

/-!
# Scripts

A script says what a rule asks for, one request after the other, and how it goes on with each
answer. A request is a single operation of the machine, or the evaluation, the execution or the call
of a part. Every rule for expressions, statements, calls and runs is a script carried out, so what
happens in the course of a run can be told request by request.

## Main definitions

* `Operation`, `Request`: what a rule can ask for
* `Script`: what a rule asks for and how it goes on
* `Config.carryOut`: the meaning of a request
* `Config.evaluationScript`, `Config.executionScript`, `Config.iterationScript`,
  `Config.admissionScript`, `Config.bodyScript`, `Config.runScript`: the scripts of the rules

## Main results

* `Config.eval_eq_run`, `Config.exec_eq_run`, `Config.loop_eq_run`, `Config.functionCall_eq_run`,
  `Config.run_eq_run`: the rules are their scripts carried out
-/

namespace CellC

variable {α β : Type}

/-- What an action yields does not matter if it is passed over. -/
theorem Action.discard_bind (action : Action α) (next : Action β) :
    ((discard action : Action Unit) >>= fun _ => next) = action >>= fun _ => next := by
  funext s
  show ((discard action : Action Unit) >>= fun _ => next).run s = (action >>= fun _ => next).run s
  rw [EStateM.run_bind, EStateM.run_bind, Action.run_discard]
  cases action.run s <;> rfl

/-! ### Requests -/

/-- A single operation of the machine, which evaluates no expression and executes no statement. -/
inductive Operation
  /-- Look-ups in the program. -/
  | expr (id : ExprId)
  | stmt (id : StmtId)
  | var (id : VarId)
  | func (id : FuncId)
  /-- Something went wrong. -/
  | fail (fault : Fault)
  /-- The outcome of an operator on cells. -/
  | compute (outcome : Except Fault Cell)
  /-- An entry in the journal. -/
  | note (event : Event)
  /-- Variables. -/
  | varValue (var : VarId)
  | assignVar (var : VarId) (value : Value)
  | bind (var : VarId) (value : Value)
  /-- The frame of the innermost activation. -/
  | record (expr : ExprId) (value : Value)
  | returning (value : Value)
  /-- Memory. -/
  | load (address : Address) (type : TypeId)
  | store (address : Address) (type : TypeId) (value : Value)
  | newArray (size : Cell)
  | allocate (size : Cell)
  | release (address : Address)
  /-- Output and input. -/
  | println (line : String)
  | read
  /-- One more call has to be permitted. -/
  | checkDepth
  /-- Whether the file-scope variables have their values. -/
  | globalsReady
  | setGlobalsReady

/-- What an operation yields. -/
abbrev Operation.Answer : Operation → Type
  | expr _ => Expr
  | stmt _ => Stmt
  | var _ => VarDecl
  | func _ => FuncDecl
  | fail _ => Empty
  | compute _ => Cell
  | varValue _ | load _ _ | newArray _ => Value
  | allocate _ => Address
  | release _ => Option Purpose
  | read => Option Cell
  | globalsReady => Bool
  | note _ | assignVar _ _ | bind _ _ | record _ _ | returning _ | store _ _ _ | println _
  | checkDepth | setGlobalsReady => Unit

/-- What a rule can ask for. -/
inductive Request
  /-- An operation of the machine. -/
  | operate (operation : Operation)
  /-- The value of an expression. -/
  | evaluate (expr : ExprId)
  /-- The execution of a statement. -/
  | execute (stmt : StmtId)
  /-- The iterations of a loop. -/
  | iterate (cond : ExprId) (body : StmtId) (step : Option ExprId)
  /-- The call of a function that is no primitive, with arguments that have been evaluated. -/
  | invoke (callee : FuncId) (values : List Value) (type : TypeId)
  /-- A run of the program. -/
  | run

/-- What a request yields. -/
abbrev Request.Answer : Request → Type
  | operate operation => operation.Answer
  | evaluate _ | invoke _ _ _ | run => Value
  | execute _ | iterate _ _ _ => Completion

/-- On any one level, the requests of some rank are met by requests of lower rank and by requests on
the level below. -/
def Request.rank : Request → Nat
  | operate _ => 0
  | evaluate _ | execute _ | iterate _ _ _ => 1
  | invoke _ _ _ => 2
  | run => 3

/-- Whether a declaration can ask for it: what is declared, its initial value or memory for an
array, a note and the binding itself. -/
def Request.ServesDeclarations : Request → Prop
  | operate (.var _) | operate (.newArray _) | operate (.note _) | operate (.bind _ _)
  | evaluate _ => True
  | _ => False

/-- Whether a primitive can ask for it: memory, output, input, a note or a fault. -/
def Request.ServesPrimitives : Request → Prop
  | operate (.fail _) | operate (.note _) | operate (.allocate _) | operate (.release _)
  | operate (.println _) | operate .read => True
  | _ => False

namespace Config

variable (config : Config)

/-- The meaning of an operation. -/
def perform : (operation : Operation) → Action operation.Answer
  | .expr id => Action.ofOption (config.program.expr? id)
  | .stmt id => Action.ofOption (config.program.stmt? id)
  | .var id => Action.ofOption (config.program.var? id)
  | .func id => Action.ofOption (config.program.func? id)
  | .fail fault => Action.fail fault
  | .compute outcome => Action.ofExcept outcome
  | .note event => Action.emit event
  | .varValue var => config.varValue var
  | .assignVar var value => config.assignVar var value
  | .bind var value => Action.bind var value
  | .record expr value => Action.record expr value
  | .returning value => Action.modifyTop (·.returning value)
  | .load address type => config.loadAt address type
  | .store address type value => config.storeAt address type value
  | .newArray size => Action.newArray size
  | .allocate size => Action.allocate size .explicit
  | .release address => Action.release address
  | .println line => Action.println line
  | .read => Action.readInteger
  | .checkDepth => config.checkDepth
  | .globalsReady => do return (← get).globalsReady
  | .setGlobalsReady => modify fun state => { state with globalsReady := true }

/-- The meaning of a request, given the meaning of trees, calls and runs. -/
def answer (eval : ExprId → Action Value) (exec : StmtId → Action Completion)
    (loop : ExprId → StmtId → Option ExprId → Action Completion)
    (invoke : FuncId → List Value → TypeId → Action Value) (run : Action Value) :
    (request : Request) → Action request.Answer
  | .operate operation => config.perform operation
  | .evaluate id => eval id
  | .execute id => exec id
  | .iterate cond body step => loop cond body step
  | .invoke callee values type => invoke callee values type
  | .run => run

/-- The meaning of a request within a number of levels. -/
def carryOut (levels : Nat) : (request : Request) → Action request.Answer
  | .operate operation => config.perform operation
  | .evaluate id => eval config levels id
  | .execute id => exec config levels id
  | .iterate cond body step => loop config levels cond body step
  | .invoke callee values type => config.functionCall (exec config levels) callee values type
  | .run => config.run levels

/-- The machine answers requests with its own rules. -/
theorem carryOut_eq_answer (levels : Nat) :
    config.carryOut levels =
      config.answer (eval config levels) (exec config levels) (loop config levels)
        (config.functionCall (exec config levels)) (config.run levels) := by
  funext request
  cases request <;> rfl

end Config

/-! ### Scripts -/

/-- What a rule asks for, one request after the other, and how it goes on with each answer. -/
inductive Script (α : Type) : Type
  | done (a : α)
  | ask (request : Request) (next : request.Answer → Script α)

namespace Script

/-- One script after the other. -/
protected def bind : Script α → (α → Script β) → Script β
  | done a, next => next a
  | ask request rest, next => ask request fun answer => (rest answer).bind next

instance : Monad Script where
  pure := done
  bind := Script.bind

variable (carryOut : (request : Request) → Action request.Answer)

/-- Carries out a script. -/
def run : Script α → Action α
  | done a => pure a
  | ask request next => carryOut request >>= fun answer => (next answer).run

/-- Scripts run one after the other as actions do. -/
@[simp] theorem run_bind (script : Script α) (next : α → Script β) :
    (script >>= next).run carryOut = script.run carryOut >>= fun a => (next a).run carryOut := by
  induction script with
  | done a => rfl
  | ask request rest ih =>
    refine Eq.trans (bind_congr fun answer => ih answer) ?_
    exact (bind_assoc (carryOut request) _ _).symm

variable {carryOut} in
/-- Scripts in sequence are carried out in sequence. -/
theorem run_bind_eq {script : Script α} {next : α → Script β} {action : Action α}
    {next' : α → Action β} (first : script.run carryOut = action)
    (rest : ∀ a, (next a).run carryOut = next' a) :
    (script >>= next).run carryOut = action >>= next' := by
  rw [run_bind, first]
  exact bind_congr rest

/-- Every request that the script can make has `P`. -/
def Asks (P : Request → Prop) : Script α → Prop
  | done _ => True
  | ask request next => P request ∧ ∀ answer, (next answer).Asks P

/-- Nothing is demanded of the requests. -/
theorem asks_true (script : Script α) : script.Asks fun _ => True := by
  induction script with
  | done a => trivial
  | ask request next ih => exact ⟨trivial, ih⟩

theorem Asks.mono {P Q : Request → Prop} {script : Script α} (asks : script.Asks P)
    (weaker : ∀ request, P request → Q request) : script.Asks Q := by
  induction script with
  | done a => trivial
  | ask request next ih =>
    exact ⟨weaker request asks.1, fun answer => ih answer (asks.2 answer)⟩

/-- A sequence asks for what its first part asks for and for what each continuation does. -/
theorem Asks.bind {P : Request → Prop} {script : Script α} {next : α → Script β}
    (h : script.Asks P) (rest : ∀ a, (next a).Asks P) : (script >>= next).Asks P := by
  induction script with
  | done a => exact rest a
  | ask request next' ih => exact ⟨h.1, fun answer => ih answer (h.2 answer)⟩

variable {carryOut} in
/-- A relation between actions that is kept by sequences is passed on from requests to scripts. -/
theorem Asks.related {carryOut' : (request : Request) → Action request.Answer}
    {P : Request → Prop} {R : {γ : Type} → Action γ → Action γ → Prop}
    (pure : ∀ {γ : Type} (a : γ), R (pure a) (pure a))
    (bind : ∀ {γ δ : Type} {action action' : Action γ} {next next' : γ → Action δ},
      R action action' → (∀ a, R (next a) (next' a)) → R (action >>= next) (action' >>= next'))
    (requests : ∀ request, P request → R (carryOut request) (carryOut' request))
    {script : Script α} (h : script.Asks P) :
    R (script.run carryOut) (script.run carryOut') := by
  induction script with
  | done a => exact pure a
  | ask request next ih => exact bind (requests request h.1) fun answer => ih answer (h.2 answer)

variable {carryOut} in
/-- A property of actions that is kept by sequences is passed on from requests to scripts. -/
theorem Asks.holds {P : Request → Prop} {Q : {γ : Type} → Action γ → Prop}
    (pure : ∀ {γ : Type} (a : γ), Q (pure a))
    (bind : ∀ {γ δ : Type} {action : Action γ} {next : γ → Action δ},
      Q action → (∀ a, Q (next a)) → Q (action >>= next))
    (requests : ∀ request, P request → Q (carryOut request)) {script : Script α}
    (h : script.Asks P) : Q (script.run carryOut) :=
  @related α carryOut carryOut P (fun action _ => Q action) pure bind requests script h

/-- Asks for one thing. -/
def request (request : Request) : Script request.Answer := ask request done

@[simp] theorem run_request (asked : Request) : (request asked).run carryOut = carryOut asked :=
  bind_pure _

/-- Asks for an operation. -/
def operate (operation : Operation) : Script operation.Answer := request (.operate operation)

/-- Asks for the value of an expression. -/
def evaluate (expr : ExprId) : Script Value := request (.evaluate expr)

/-- Asks for the execution of a statement. -/
def execute (stmt : StmtId) : Script Completion := request (.execute stmt)

/-- Asks for the iterations of a loop. -/
def iterate (cond : ExprId) (body : StmtId) (step : Option ExprId) : Script Completion :=
  request (.iterate cond body step)

/-- Asks for the call of a function. -/
def invoke (callee : FuncId) (values : List Value) (type : TypeId) : Script Value :=
  request (.invoke callee values type)

/-- Goes wrong. -/
def fail (fault : Fault) : Script α := ask (.operate (.fail fault)) Empty.elim

end Script

open Script (operate evaluate execute iterate invoke fail)

namespace Config

variable (config : Config)

/-! ### The scripts of expressions -/

/-- The address of an element. -/
def subscriptScript (base index : ExprId) : Script Address := do
  let start ← evaluate base
  let position ← evaluate index
  pure (start.address.offset (position.cell * config.elementStride (config.program.exprType base)))

/-- The value of a unary operator's application. -/
def unaryScript (op : UnaryOp) (operand : ExprId) (type : TypeId) : Script Value :=
  match op with
  | .addrOf => fail (.unsupportedOp op.symbol)
  | .deref => do operate (.load (← evaluate operand).address type)
  | .neg | .plus | .bitNot | .not => do
    let cell ← operate (.compute (op.apply (← evaluate operand).cell))
    pure (config.types.view type cell)

/-- The value of an assignment. -/
def assignScript (target value : ExprId) : Script Value := do
  let value ← evaluate value
  let target := config.program.unparen target
  let node ← operate (.expr target)
  let stored := config.types.view node.type value.cell
  match node.form with
  | .ident var => operate (.assignVar var stored)
  | .index base index => do
    operate (.store (← config.subscriptScript base index) node.type stored)
  | .unary .deref operand => do operate (.store (← evaluate operand).address node.type stored)
  | form => fail (.notAssignable form.label)
  operate (.record target stored)
  pure stored

/-- The value of a binary operator's application. -/
def binaryScript (op : BinaryOp) (left right : ExprId) (type : TypeId) : Script Value :=
  if !op.supported then fail (.unsupportedOp op.symbol)
  else if op.assigns then config.assignScript left right
  else do
    let x ← evaluate left
    let y ← evaluate right
    let (a, b) := config.scaled op (config.program.exprType left) (config.program.exprType right)
      x.cell y.cell
    let cell ← operate (.compute (op.apply a b))
    pure (config.types.view type cell)

/-- The values of arguments, from left to right. -/
def argsScript : List ExprId → Script (List Value)
  | [] => pure []
  | expr :: exprs => do
    let value ← evaluate expr
    let values ← argsScript exprs
    pure (value :: values)

/-- The number of arguments of a call has to be the expected one. -/
def arityScript (name : String) (expected got : Nat) : Script Unit :=
  if got = expected then pure () else fail (.wrongArity name expected got)

/-- An integer from the input. -/
def readScript (type : TypeId) : Script Value := do
  match ← operate .read with
  | some n => pure (config.types.view type n)
  | none => do
    operate (.note .inputUnavailable)
    pure (config.types.view type 0)

/-- The value of a call of a primitive. -/
def primitiveScript (primitive : Primitive) (values : List Value) (type : TypeId) :
    Script Value := do
  arityScript primitive.name primitive.arity values.length
  let argument := values.headD .zero
  match primitive with
  | .read => do
    if config.prompt then operate (.println promptLine)
    config.readScript type
  | .print => do
    operate (.println argument.cell.text)
    pure .zero
  | .allocate => do
    let base ← operate (.allocate argument.cell)
    pure (config.types.view type base.toCell)
  | .free => do
    let _ ← operate (.release argument.address)
    pure .zero

/-- The value of the call `id` once the arguments are evaluated. -/
def dispatchScript (id : ExprId) (callee : FuncId) (values : List Value) (type : TypeId) :
    Script Value := do
  operate (.note (.dispatch id values))
  match config.setup.primitive? callee with
  | some primitive => config.primitiveScript primitive values type
  | none => invoke callee values type

/-- The value of the call `id`. -/
def callScript (id : ExprId) (callee : FuncId) (args : List ExprId) (type : TypeId) :
    Script Value := do
  operate (.note (.call callee))
  let values ← argsScript args
  config.dispatchScript id callee values type

/-- The value of an expression of any form. -/
def expressionScript (id : ExprId) (expr : Expr) : Script Value :=
  match expr.form with
  | .ident var => operate (.varValue var)
  | .intLit n => pure (.int n)
  | .charLit byte => pure (.char byte.toInt8)
  | .strLit _ => fail (.unsupportedExpr expr.form.label)
  | .paren inner => evaluate inner
  | .sizeOf _ => pure (.int 8)
  | .unary op operand => config.unaryScript op operand expr.type
  | .binary op left right => config.binaryScript op left right expr.type
  | .index base index => do operate (.load (← config.subscriptScript base index) expr.type)
  | .call callee args => config.callScript id callee args expr.type
  | .cast _ _ operand => evaluate operand

/-- The evaluation of the expression with the given number. -/
def evaluationScript (id : ExprId) : Script Value := do
  let expr ← operate (.expr id)
  let value ← config.expressionScript id expr
  operate (.record id value)
  pure value

/-! ### The scripts of statements -/

/-- The value with which a declared variable starts. -/
def startScript (decl : VarDecl) : Script Value :=
  if config.types.isArray decl.type then operate (.newArray (config.types.stride decl.type))
  else
    match decl.init with
    | some init => do pure (config.types.view decl.type (← evaluate init).cell)
    | none => pure (config.types.view decl.type 0)

/-- A variable comes to life. -/
def declareScript (var : VarId) : Script Unit := do
  let decl ← operate (.var var)
  let value ← config.startScript decl
  operate (.note (.declare var value))
  operate (.bind var value)

/-- Variables come to life one after the other. -/
def declareAllScript (vars : List VarId) : Script Unit :=
  vars.foldr (fun var rest => config.declareScript var >>= fun _ => rest) (pure ())

/-- Statements in order until one returns. -/
def compoundScript : List StmtId → Script Completion
  | [] => pure .completed
  | stmt :: stmts => do
    match ← execute stmt with
    | .returned value => pure (.returned value)
    | .completed => compoundScript stmts

/-- One of two statements. -/
def branchScript (cond : ExprId) (yes : StmtId) (no : Option StmtId) : Script Completion := do
  if (← evaluate cond).isTrue then execute yes
  else
    match no with
    | some stmt => execute stmt
    | none => pure .completed

/-- A value to return. -/
def returnScript (value : Option ExprId) : Script Completion := do
  let value ←
    match value with
    | some expr => evaluate expr
    | none => pure .zero
  operate (.returning value)
  pure (.returned value)

/-- The iterations of a loop from a test of its condition on. -/
def iterationScript (cond : ExprId) (body : StmtId) (step : Option ExprId) :
    Script Completion := do
  if (← evaluate cond).isTrue then
    match ← execute body with
    | .returned value => pure (.returned value)
    | .completed =>
      match step with
      | some expr => do
        let _ ← evaluate expr
        iterate cond body step
      | none => iterate cond body step
  else pure .completed

/-- The iterations of a `for` statement, unless its start returned. -/
def afterStartScript (cond step : Option ExprId) (body : StmtId) : Completion → Script Completion
  | .returned value => pure (.returned value)
  | .completed =>
    match cond with
    | some cond => iterate cond body step
    | none => fail .forWithoutCondition

/-- A `for` statement: its start and then its iterations. -/
def forScript (start : Option StmtId) (cond step : Option ExprId) (body : StmtId) :
    Script Completion := do
  let started ←
    match start with
    | some stmt => execute stmt
    | none => pure .completed
  afterStartScript cond step body started

/-- The execution of a statement of any form. -/
def statementScript (stmt : Stmt) : Script Completion :=
  match stmt with
  | .decl vars => do
    config.declareAllScript vars
    pure .completed
  | .expr expr => do
    let _ ← evaluate expr
    pure .completed
  | .branch cond yes no => branchScript cond yes no
  | .while cond body => iterate cond body none
  | .for start cond step body => forScript start cond step body
  | .return value => returnScript value
  | .compound stmts => compoundScript stmts
  | .break | .continue => fail (.unsupportedStmt stmt.label)

/-- The execution of the statement with the given number. -/
def executionScript (id : StmtId) : Script Completion := do
  let stmt ← operate (.stmt id)
  operate (.note (.exec id))
  config.statementScript stmt

/-! ### The scripts of calls and runs -/

/-- What has to be in order before the body of a function starts: its parameters and the body. -/
def admissionScript (callee : FuncId) (values : List Value) : Script (List VarId × StmtId) := do
  let decl ← operate (.func (config.setup.implementation config.program callee))
  let name := config.program.names.spelling decl.name
  match decl.body with
  | none => fail (.noBody name)
  | some body => do
    arityScript name decl.params.length values.length
    operate .checkDepth
    pure (decl.params, body)

/-- Binds parameters to arguments. -/
def bindParamsScript (params : List VarId) (values : List Value) : Script Unit :=
  (params.zip values).foldr (fun pair rest => do
    let decl ← operate (.var pair.1)
    operate (.bind pair.1 (config.types.view decl.type pair.2.cell))
    rest) (pure ())

/-- The body of a function with its parameters bound to arguments. -/
def bodyScript (params : List VarId) (values : List Value) (body : StmtId) : Script Unit := do
  config.bindParamsScript params values
  let _ ← execute body
  pure ()

/-- The file-scope variables come to life, unless they have. -/
def readyScript : Script Unit := do
  if !(← operate .globalsReady) then
    config.declareAllScript config.setup.globals
    operate .setGlobalsReady

/-- A run of the program. -/
def runScript : Script Value := do
  operate (.note .run)
  config.readyScript
  let entry := config.setup.entry
  let decl ← operate (.func entry)
  let values := List.replicate decl.params.length Value.zero
  let value ← invoke entry values decl.ret
  operate (.note (.entryReturned value))
  pure value

/-! ### The rules are their scripts -/

section Rules

variable {eval : ExprId → Action Value} {exec : StmtId → Action Completion}
  {loop : ExprId → StmtId → Option ExprId → Action Completion}
  {invoke : FuncId → List Value → TypeId → Action Value} {run : Action Value}

theorem run_operate (operation : Operation) :
    (operate operation).run (config.answer eval exec loop invoke run) = config.perform operation :=
  Script.run_request _ _

theorem run_evaluate (id : ExprId) :
    (evaluate id).run (config.answer eval exec loop invoke run) = eval id :=
  Script.run_request _ _

theorem run_execute (id : StmtId) :
    (execute id).run (config.answer eval exec loop invoke run) = exec id :=
  Script.run_request _ _

theorem run_iterate (cond : ExprId) (body : StmtId) (step : Option ExprId) :
    (iterate cond body step).run (config.answer eval exec loop invoke run) =
      loop cond body step :=
  Script.run_request _ _

theorem run_invoke (callee : FuncId) (values : List Value) (type : TypeId) :
    (Script.invoke callee values type).run (config.answer eval exec loop invoke run) =
      invoke callee values type :=
  Script.run_request _ _

/-- The script of a unary operation is its rule. -/
theorem run_unaryScript (op : UnaryOp) (operand : ExprId) (type : TypeId) :
    (config.unaryScript op operand type).run (config.answer eval exec loop invoke run) =
      config.unary eval op operand type := by
  cases op with
  | addrOf => rfl
  | deref => exact bind_congr fun value => config.run_operate (.load value.address type)
  | neg | plus | bitNot | not => rfl

/-- The script of an assignment is its rule. -/
theorem run_assignScript (target value : ExprId) :
    (config.assignScript target value).run (config.answer eval exec loop invoke run) =
      config.assign eval target value := by
  refine bind_congr fun v => bind_congr fun (node : Expr) => ?_
  obtain ⟨form, type⟩ := node
  cases form with
  | unary op operand => cases op <;> rfl
  | ident => rfl
  | index base index => exact Script.run_bind _ (config.subscriptScript base index) _
  | intLit | charLit | strLit | paren | sizeOf | binary | call | cast => rfl

/-- The script of a binary operation is its rule, the operand that is skipped included. -/
theorem run_binaryScript (op : BinaryOp) (left right : ExprId) (type : TypeId) :
    (config.binaryScript op left right type).run (config.answer eval exec loop invoke run) =
      config.binary eval op left right type := by
  unfold binaryScript binary
  split
  · rfl
  split
  · exact config.run_assignScript left right
  · rfl

/-- The script of an argument list evaluates it from left to right. -/
theorem run_argsScript (exprs : List ExprId) :
    (argsScript exprs).run (config.answer eval exec loop invoke run) =
      Config.args eval exprs := by
  induction exprs with
  | nil => rfl
  | cons expr exprs ih =>
    exact bind_congr fun value => Script.run_bind_eq ih fun values => rfl

theorem run_arityScript (name : String) (expected got : Nat) :
    (arityScript name expected got).run (config.answer eval exec loop invoke run) =
      checkArity name expected got := by
  unfold arityScript checkArity
  split <;> rfl

theorem run_readScript (type : TypeId) :
    (config.readScript type).run (config.answer eval exec loop invoke run) =
      config.readValue type := by
  refine bind_congr fun n => ?_
  cases n <;> rfl

/-- The script of a call of a primitive is the work of the primitive. -/
theorem run_primitiveScript (primitive : Primitive) (values : List Value) (type : TypeId) :
    (config.primitiveScript primitive values type).run (config.answer eval exec loop invoke run) =
      config.primitiveCall primitive values type := by
  refine Script.run_bind_eq (config.run_arityScript _ _ _) fun _ => ?_
  cases primitive with
  | read =>
    dsimp only
    split
    · exact bind_congr fun _ => config.run_readScript type
    · exact config.run_readScript type
  | print | allocate => rfl
  | free => exact (Action.discard_bind _ _).symm

theorem run_dispatchScript (id : ExprId) (callee : FuncId) (values : List Value) (type : TypeId) :
    (config.dispatchScript id callee values type).run
      (config.answer eval exec loop invoke run) = (do
        Action.emit (.dispatch id values)
        match config.setup.primitive? callee with
        | some primitive => config.primitiveCall primitive values type
        | none => invoke callee values type) := by
  refine bind_congr fun _ => ?_
  cases config.setup.primitive? callee with
  | some primitive => exact config.run_primitiveScript primitive values type
  | none => exact config.run_invoke callee values type

/-- The script of a call is its rule. -/
theorem run_callScript (id : ExprId) (callee : FuncId) (args : List ExprId) (type : TypeId) :
    (config.callScript id callee args type).run (config.answer eval exec loop invoke run) =
      config.call eval invoke id callee args type := by
  refine bind_congr fun _ => Script.run_bind_eq (config.run_argsScript args) fun values => ?_
  exact config.run_dispatchScript id callee values type

/-- The script of an expression is the rule for its form. -/
theorem run_expressionScript (id : ExprId) (expr : Expr) :
    (config.expressionScript id expr).run (config.answer eval exec loop invoke run) =
      config.expression eval invoke id expr := by
  obtain ⟨form, type⟩ := expr
  cases form with
  | ident var => exact config.run_operate (.varValue var)
  | intLit | charLit | strLit | sizeOf => rfl
  | paren inner => exact config.run_evaluate inner
  | unary op operand => exact config.run_unaryScript op operand type
  | binary op left right => exact config.run_binaryScript op left right type
  | index base index =>
    exact Script.run_bind_eq rfl fun address => config.run_operate (.load address type)
  | call callee args => exact config.run_callScript id callee args type
  | cast _ _ operand => exact config.run_evaluate operand

/-- The script of an evaluation is the whole evaluation, the look-up and the record included. -/
theorem run_evaluationScript (id : ExprId) :
    (config.evaluationScript id).run (config.answer eval exec loop invoke run) =
      config.evaluation eval invoke id := by
  refine bind_congr fun expr => ?_
  exact Script.run_bind_eq (config.run_expressionScript id expr) fun value => rfl

theorem run_startScript (decl : VarDecl) :
    (config.startScript decl).run (config.answer eval exec loop invoke run) =
      config.startValue eval decl := by
  unfold startScript startValue
  split
  · exact config.run_operate (.newArray _)
  · cases decl.init <;> rfl

theorem run_declareScript (var : VarId) :
    (config.declareScript var).run (config.answer eval exec loop invoke run) =
      config.declare eval var := by
  refine bind_congr fun decl => ?_
  refine Script.run_bind_eq (config.run_startScript decl) fun value => ?_
  exact bind_congr fun _ => config.run_operate (.bind var value)

theorem run_declareAllScript (vars : List VarId) :
    (config.declareAllScript vars).run (config.answer eval exec loop invoke run) =
      config.declareAll eval vars := by
  induction vars with
  | nil => rfl
  | cons var vars ih =>
    exact Script.run_bind_eq (config.run_declareScript var) fun _ => ih

/-- The script of a compound statement stops where its rule does. -/
theorem run_compoundScript (stmts : List StmtId) :
    (compoundScript stmts).run (config.answer eval exec loop invoke run) =
      Config.compound exec stmts := by
  induction stmts with
  | nil => rfl
  | cons stmt stmts ih =>
    refine bind_congr fun (completion : Completion) => ?_
    cases completion with
    | returned value => rfl
    | completed => exact ih

theorem run_branchScript (cond : ExprId) (yes : StmtId) (no : Option StmtId) :
    (branchScript cond yes no).run (config.answer eval exec loop invoke run) =
      Config.branch eval exec cond yes no := by
  refine Script.run_bind_eq (config.run_evaluate cond) fun value => ?_
  split
  · exact config.run_execute yes
  · cases no with
    | some stmt => exact config.run_execute stmt
    | none => rfl

theorem run_returnScript (value : Option ExprId) :
    (returnScript value).run (config.answer eval exec loop invoke run) =
      Config.returnWith eval value := by
  cases value <;> rfl

/-- The script of a turn of a loop is one turn, with the rest of the loop as one request. -/
theorem run_iterationScript (cond : ExprId) (body : StmtId) (step : Option ExprId) :
    (iterationScript cond body step).run (config.answer eval exec loop invoke run) =
      Config.iteration eval exec loop cond body step := by
  refine Script.run_bind_eq (config.run_evaluate cond) fun value => ?_
  split
  · refine Script.run_bind_eq (config.run_execute body) fun completion => ?_
    cases completion with
    | returned value => rfl
    | completed =>
      cases step with
      | some expr =>
        refine Eq.trans ?_ (Action.discard_bind _ _).symm
        exact bind_congr fun _ => config.run_iterate cond body _
      | none => exact config.run_iterate cond body none
  · rfl

/-- The script of a counting loop is its rule, with the loop itself as one request. -/
theorem run_forScript (start : Option StmtId) (cond step : Option ExprId) (body : StmtId) :
    (forScript start cond step body).run (config.answer eval exec loop invoke run) =
      Config.forLoop exec loop start cond step body := by
  have rest (completion : Completion) :
      (afterStartScript cond step body completion).run (config.answer eval exec loop invoke run) =
        Config.afterStart loop cond step body completion := by
    cases completion with
    | returned value => rfl
    | completed =>
      cases cond with
      | some cond => exact config.run_iterate cond body step
      | none => rfl
  cases start with
  | some stmt => exact bind_congr rest
  | none => exact rest .completed

/-- The script of a statement is the rule for its form. -/
theorem run_statementScript (stmt : Stmt) :
    (config.statementScript stmt).run (config.answer eval exec loop invoke run) =
      config.statement eval exec loop stmt := by
  cases stmt with
  | decl vars =>
    exact Script.run_bind_eq (config.run_declareAllScript vars) fun _ => rfl
  | expr expr => exact (Action.discard_bind _ _).symm
  | branch cond yes no => exact config.run_branchScript cond yes no
  | «while» cond body => exact config.run_iterate cond body none
  | «for» start cond step body => exact config.run_forScript start cond step body
  | «return» value => exact config.run_returnScript value
  | compound stmts => exact config.run_compoundScript stmts
  | «break» | «continue» => rfl

/-- The script of an execution is the whole execution, the look-up and the announcement included. -/
theorem run_executionScript (id : StmtId) :
    (config.executionScript id).run (config.answer eval exec loop invoke run) =
      config.execution eval exec loop id :=
  bind_congr fun stmt => bind_congr fun _ => config.run_statementScript stmt

/-- The script of an admission is what a call does before it opens an activation. -/
theorem run_admissionScript (callee : FuncId) (values : List Value) :
    (config.admissionScript callee values).run (config.answer eval exec loop invoke run) = (do
      let decl ← Action.ofOption
        (config.program.func? (config.setup.implementation config.program callee))
      let name := config.program.names.spelling decl.name
      match decl.body with
      | none => .fail (.noBody name)
      | some body => do
        checkArity name decl.params.length values.length
        config.checkDepth
        pure (decl.params, body)) := by
  refine Script.run_bind_eq (config.run_operate _) fun decl => ?_
  cases decl.body with
  | none => rfl
  | some body => exact Script.run_bind_eq (config.run_arityScript _ _ _) fun _ => rfl

/-- A call is its admission, then the activation of the body, then the view of what is returned. -/
theorem functionCall_eq_answer (callee : FuncId) (values : List Value) (type : TypeId) :
    config.functionCall exec callee values type =
      (do
        let (params, body) ← (config.admissionScript callee values).run
          (config.answer eval exec loop invoke run)
        let ret ← config.activation exec params values body
        pure (config.types.view type ret.cell)) := by
  rw [run_admissionScript, bind_assoc]
  refine bind_congr fun decl => ?_
  dsimp only
  cases decl.body with
  | none => rfl
  | some body => simp only [bind_assoc, pure_bind]

theorem run_bindParamsScript (params : List VarId) (values : List Value) :
    (config.bindParamsScript params values).run (config.answer eval exec loop invoke run) =
      config.bindParams params values := by
  induction params generalizing values with
  | nil => cases values <;> rfl
  | cons var vars ih =>
    cases values with
    | nil => rfl
    | cons value values => exact bind_congr fun decl => bind_congr fun _ => ih values

/-- The script of a body binds the parameters and then executes the body. -/
theorem run_bodyScript (params : List VarId) (values : List Value) (body : StmtId) :
    (config.bodyScript params values body).run (config.answer eval exec loop invoke run) =
      config.boundBody exec params values body := by
  refine Script.run_bind_eq (config.run_bindParamsScript params values) fun _ => ?_
  exact (Action.discard_bind _ _).symm.trans (bind_pure _)

theorem run_readyScript :
    config.readyScript.run (config.answer eval exec loop invoke run) =
      config.readyGlobals eval := by
  -- Reading the state and testing it are one step of the rule and two of the script.
  refine Eq.trans (b := config.perform .globalsReady >>= fun ready => if !ready then do
    config.declareAll eval config.setup.globals
    config.perform .setGlobalsReady else pure ()) ?_ rfl
  refine bind_congr fun (ready : Bool) => ?_
  cases ready with
  | true => rfl
  | false =>
    refine Script.run_bind_eq (config.run_declareAllScript _) fun _ => ?_
    exact config.run_operate .setGlobalsReady

/-- The script of a run sets up the file-scope variables and then calls the entry point. -/
theorem run_runScript :
    config.runScript.run (config.answer eval exec loop invoke run) =
      config.running eval invoke := by
  refine Script.run_bind_eq (config.run_operate (.note .run)) fun _ => ?_
  exact Script.run_bind_eq config.run_readyScript fun _ => rfl

end Rules

/-! ### Levels -/

section Levels

variable (levels : Nat)

/-- An evaluation is the run of its script by the machine one level down. -/
theorem eval_eq_run (id : ExprId) :
    CellC.eval config (levels + 1) id =
      (config.evaluationScript id).run (config.carryOut levels) := by
  rw [carryOut_eq_answer, run_evaluationScript]
  rfl

/-- An execution is the run of its script by the machine one level down. -/
theorem exec_eq_run (id : StmtId) :
    CellC.exec config (levels + 1) id =
      (config.executionScript id).run (config.carryOut levels) := by
  rw [carryOut_eq_answer, run_executionScript]
  rfl

/-- A turn of a loop is the run of its script by the machine one level down. -/
theorem loop_eq_run (cond : ExprId) (body : StmtId) (step : Option ExprId) :
    CellC.loop config (levels + 1) cond body step =
      (iterationScript cond body step).run (config.carryOut levels) := by
  rw [carryOut_eq_answer, run_iterationScript]
  rfl

/-- A call runs the script of its admission by the machine at its own level. -/
theorem functionCall_eq_run (callee : FuncId) (values : List Value) (type : TypeId) :
    config.functionCall (CellC.exec config levels) callee values type =
      (do
        let (params, body) ← (config.admissionScript callee values).run (config.carryOut levels)
        let ret ← config.activation (CellC.exec config levels) params values body
        pure (config.types.view type ret.cell)) := by
  rw [carryOut_eq_answer]
  exact config.functionCall_eq_answer callee values type

/-- The body of a call is the run of its script by the machine at its own level. -/
theorem boundBody_eq_run (params : List VarId) (values : List Value) (body : StmtId) :
    config.boundBody (CellC.exec config levels) params values body =
      (config.bodyScript params values body).run (config.carryOut levels) := by
  rw [carryOut_eq_answer, run_bodyScript]

/-- A whole run is the run of its script. -/
theorem run_eq_run :
    config.run levels = config.runScript.run (config.carryOut levels) := by
  rw [carryOut_eq_answer, run_runScript]
  rfl

end Levels

/-! ### Ranks -/

/-- Whether a call is admitted is settled by operations alone. -/
theorem asks_admissionScript (callee : FuncId) (values : List Value) :
    (config.admissionScript callee values).Asks (·.rank = 0) := by
  refine ⟨rfl, fun (decl : FuncDecl) => ?_⟩
  obtain ⟨name, params, ret, body⟩ := decl
  cases body with
  | none => exact ⟨rfl, nofun⟩
  | some body =>
    have arity : (arityScript (config.program.names.spelling name) params.length
        values.length).Asks (·.rank = 0) := by
      unfold arityScript
      split
      · trivial
      · exact ⟨rfl, nofun⟩
    exact arity.bind fun _ => ⟨rfl, fun _ => trivial⟩

/-- Primitives work on memory, output and input. -/
theorem asks_primitiveScript (primitive : Primitive) (values : List Value) (type : TypeId) :
    (config.primitiveScript primitive values type).Asks Request.ServesPrimitives := by
  have arity : (arityScript primitive.name primitive.arity values.length).Asks
      Request.ServesPrimitives := by
    unfold arityScript
    split
    · trivial
    · exact ⟨trivial, nofun⟩
  refine arity.bind fun _ => ?_
  cases primitive with
  | read =>
    have read : (config.readScript type).Asks Request.ServesPrimitives := by
      refine ⟨trivial, fun (n : Option Cell) => ?_⟩
      cases n with
      | some n => trivial
      | none => exact ⟨trivial, fun _ => trivial⟩
    dsimp only
    split
    · exact ⟨trivial, fun _ => read⟩
    · exact read
  | print | allocate | free => exact ⟨trivial, fun _ => trivial⟩

theorem asks_bodyScript (params : List VarId) (values : List Value) (body : StmtId) :
    (config.bodyScript params values body).Asks (·.rank ≤ 1) := by
  have bindings (pairs : List (VarId × Value)) : Script.Asks (·.rank ≤ 1)
      (pairs.foldr (fun pair rest => do
        let decl ← operate (.var pair.1)
        operate (.bind pair.1 (config.types.view decl.type pair.2.cell))
        rest) (pure ())) := by
    induction pairs with
    | nil => trivial
    | cons pair pairs ih => exact ⟨Nat.zero_le 1, fun _ => ⟨Nat.zero_le 1, fun _ => ih⟩⟩
  exact (bindings (params.zip values)).bind fun _ => ⟨Nat.le_refl 1, fun _ => trivial⟩

/-- Declarations work on variables and arrays, and evaluate initial values. -/
theorem asks_declareAllScript (vars : List VarId) :
    (config.declareAllScript vars).Asks Request.ServesDeclarations := by
  have start (decl : VarDecl) : (config.startScript decl).Asks Request.ServesDeclarations := by
    unfold startScript
    split
    · exact ⟨trivial, fun _ => trivial⟩
    · cases decl.init with
      | some init => exact ⟨trivial, fun _ => trivial⟩
      | none => trivial
  induction vars with
  | nil => trivial
  | cons var vars ih =>
    refine ⟨trivial, fun decl => ((start decl).bind fun value => ?_).bind fun _ => ih⟩
    exact ⟨trivial, fun _ => ⟨trivial, fun _ => trivial⟩⟩

/-- Declarations ask for neither calls nor runs by themselves. -/
theorem rank_le_of_servesDeclarations {request : Request} (serves : request.ServesDeclarations) :
    request.rank ≤ 2 := by
  cases request with
  | operate => exact Nat.zero_le 2
  | evaluate => exact Nat.le_succ 1
  | execute | iterate | invoke | run => cases serves

theorem asks_runScript : config.runScript.Asks (·.rank ≤ 2) := by
  have ready : config.readyScript.Asks (·.rank ≤ 2) := by
    refine ⟨Nat.zero_le 2, fun (ready : Bool) => ?_⟩
    cases ready with
    | true => trivial
    | false =>
      exact ((config.asks_declareAllScript _).mono fun _ => rank_le_of_servesDeclarations).bind
        fun _ => ⟨Nat.zero_le 2, fun _ => trivial⟩
  refine ⟨Nat.zero_le 2, fun _ => ready.bind fun _ => ⟨Nat.zero_le 2, fun decl => ?_⟩⟩
  exact ⟨Nat.le_refl 2, fun value => ⟨Nat.zero_le 2, fun _ => trivial⟩⟩

end Config

end CellC
