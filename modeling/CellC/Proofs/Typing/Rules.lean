import CellC.Proofs.Typing.State

/-!
# Rules and types

The rules for single nodes keep states typed if the evaluation of the parts does, and what they
yield has the type of the node. Each rule is stated of two evaluations of the parts that end alike,
so that it also speaks about one that is watched.

## Main results

* `Config.typedAlike_evaluation`: the value of an expression has the expression's type
* `Config.typedAlike_execution`: the execution of a statement keeps states typed
* `Config.typedAlike_functionCall`, `Config.typedAlike_running`: calls and runs
-/

namespace CellC

open CellC.Action (Related TypedAlike)
open CellC.TypeTable (canonical_view)

variable {config : Config}

/-- An expression of a type may have the values of that type. -/
theorem Program.mayHave_of_canonical {program : Program} {id : ExprId} {expr : Expr} {value : Value}
    (found : program.expr? id = some expr)
    (canonical : program.types.Canonical expr.type value) : program.MayHave id value := by
  intro _
  rw [exprType_of_expr? found]
  exact canonical

/-- A number is a value of `int` and of `void`. -/
theorem TypeTable.canonical_int {table : TypeTable} {type : TypeId}
    (layer : table.layer type = .int ∨ table.layer type = .void) (cell : Cell) :
    table.Canonical type (.int cell) := by
  unfold Canonical view
  rcases layer with layer | layer
  · rw [layer]
    rfl
  · rw [layer]
    rfl

/-- Every byte is a value of a character type. -/
theorem TypeTable.canonical_char {table : TypeTable} {type : TypeId}
    (layer : table.layer type = .char) (byte : Int8) : table.Canonical type (.char byte) := by
  unfold Canonical view
  rw [layer]
  simp [Value.ofCell, Value.cell]

/-- An array stands for its address. -/
theorem TypeTable.canonical_array {table : TypeTable} {type : TypeId}
    (array : table.isArray type = true) (address : Address) :
    table.Canonical type (.array address) := by
  obtain ⟨elem, len, layer⟩ := isArray_iff.mp array
  unfold Canonical view
  rw [layer]
  simp [Value.ofCell, Value.cell]

namespace Config

/-! ### Variables and objects in memory -/

/-- What is visible of a variable has the type of the variable. -/
theorem canonical_visibleValue? {stack : CallStack} (typed : stack.Typed config.program)
    {var : VarId} {value : Value} (visible : config.visibleValue? stack var = some value) :
    config.program.types.Canonical (config.program.varType var) value := by
  unfold visibleValue? at visible
  split at visible
  · next found =>
    obtain rfl := Option.some.inj visible
    exact typed.top.bindings var _ found
  · split at visible
    · exact typed.root.bindings var value visible
    · cases visible

/-- Reading a variable yields a value of its type. -/
theorem typedAlike_varValue (var : VarId) :
    TypedAlike config.program (config.program.types.Canonical (config.program.varType var))
      (config.varValue var) (config.varValue var) := by
  rintro s _ ⟨rfl, start⟩
  unfold varValue
  rw [Action.run_get_bind]
  cases visible : config.visibleValue? s.stack var with
  | none => exact .fault ⟨rfl, start⟩
  | some value => exact .ok ⟨rfl, canonical_visibleValue? start visible⟩ ⟨rfl, start⟩

/-- Assigning a value of its type to a variable is typed, wherever the variable is bound. -/
theorem typedAlike_assignVar {var : VarId} {value : Value}
    (canonical : config.program.types.Canonical (config.program.varType var) value) :
    TypedAlike config.program (fun _ => True) (config.assignVar var value)
      (config.assignVar var value) := by
  refine TypedAlike.of_settles fun s start => ?_
  have bound (frame : Frame) (typed : frame.Typed config.program) :
      (frame.bind var value).Typed config.program := typed.bind canonical
  unfold assignVar
  rw [Action.run_get_bind]
  split
  · exact .ok (start.modifyRoot bound)
  · exact .ok (start.modifyTop bound)

/-- What is loaded is seen as the type it is loaded at. -/
theorem typedAlike_loadAt (address : Address) (type : TypeId) :
    TypedAlike config.program (config.program.types.Canonical type) (config.loadAt address type)
      (config.loadAt address type) := by
  unfold loadAt
  split
  · next array => exact .pure (TypeTable.canonical_array array address)
  · exact (TypedAlike.load _ _).bind fun _ _ => .pure (canonical_view _ _ _)

theorem typedAlike_storeAt (address : Address) (type : TypeId) (value : Value) :
    TypedAlike config.program (fun _ => True) (config.storeAt address type value)
      (config.storeAt address type value) :=
  TypedAlike.store _ _ _

/-! ### Operators -/

section Operators

variable (h : config.WellTyped) {eval eval' : ExprId → Action Value}
  (heval : ∀ id, TypedAlike config.program (config.program.MayHave id) (eval id) (eval' id))
include heval

theorem typedAlike_subscript (base index : ExprId) :
    TypedAlike config.program (fun _ => True) (config.subscript eval base index)
      (config.subscript eval' base index) :=
  (heval base).bind fun _ _ => (heval index).bind fun _ _ => .pure trivial

/-- A unary operation yields a value of its type. -/
theorem typedAlike_unary (op : UnaryOp) (operand : ExprId) (type : TypeId) :
    TypedAlike config.program (config.program.types.Canonical type)
      (config.unary eval op operand type) (config.unary eval' op operand type) := by
  cases op with
  | addrOf => exact .fail _
  | deref => exact (heval operand).bind fun v _ => typedAlike_loadAt _ type
  | neg | plus | bitNot | not =>
    exact (heval operand).bind fun v _ => (TypedAlike.ofExcept _).bind fun cell _ =>
      .pure (canonical_view _ type cell)

include h in
/-- What is assigned has the type of the target, whatever value is assigned. -/
theorem typedAlike_assign (target value : ExprId) :
    TypedAlike config.program
      (config.program.types.Canonical (config.program.exprType target))
      (config.assign eval target value) (config.assign eval' target value) := by
  refine (heval value).bind fun v _ => (TypedAlike.ofOption _).bind fun node found => ?_
  have type : config.program.exprType target = node.type := by
    rw [← h.fit.exprType_unparen, Program.exprType_of_expr? found]
  have canonical := canonical_view config.program.types node.type v.cell
  rw [type]
  have finish : TypedAlike config.program (config.program.types.Canonical node.type)
      (do
        Action.record (config.program.unparen target) (config.types.view node.type v.cell)
        pure (config.types.view node.type v.cell))
      (do
        Action.record (config.program.unparen target) (config.types.view node.type v.cell)
        pure (config.types.view node.type v.cell)) :=
    (TypedAlike.record (Program.mayHave_of_canonical found canonical)).bind fun _ _ =>
      .pure canonical
  obtain ⟨form, _⟩ := node
  cases form with
  | ident var =>
    refine (typedAlike_assignVar ?_).bind fun _ _ => finish
    exact h.fit.ident found ▸ canonical
  | index base index =>
    exact (typedAlike_subscript heval base index).bind fun address _ =>
      (typedAlike_storeAt address _ _).bind fun _ _ => finish
  | unary op operand =>
    cases op with
    | deref =>
      exact (heval operand).bind fun pointer _ =>
        (typedAlike_storeAt pointer.address _ _).bind fun _ _ => finish
    | neg | plus | bitNot | not | addrOf =>
      exact (TypedAlike.fail (V := fun _ => True) _).bind fun _ _ => finish
  | intLit | charLit | strLit | paren | sizeOf | binary | call | cast =>
    exact (TypedAlike.fail (V := fun _ => True) _).bind fun _ _ => finish

include h in
/-- A binary operation yields a value of the type its node has. -/
theorem typedAlike_binary {id : ExprId} {op : BinaryOp} {left right : ExprId} {type : TypeId}
    (found : config.program.expr? id = some ⟨.binary op left right, type⟩) :
    TypedAlike config.program (config.program.types.Canonical type)
      (config.binary eval op left right type) (config.binary eval' op left right type) := by
  unfold binary
  split
  · exact .fail _
  split
  · next assigns =>
    obtain rfl : op = .assign := by cases op <;> first | rfl | cases assigns
    rw [h.fit.assign found]
    exact typedAlike_assign h heval left right
  · exact (heval left).bind fun x _ => (heval right).bind fun y _ =>
      (TypedAlike.ofExcept _).bind fun cell _ => .pure (canonical_view _ type cell)

theorem typedAlike_args (exprs : List ExprId) :
    TypedAlike config.program (fun _ => True) (Config.args eval exprs)
      (Config.args eval' exprs) := by
  induction exprs with
  | nil => exact .pure trivial
  | cons expr exprs ih => exact (heval expr).bind fun _ _ => ih.bind fun _ _ => .pure trivial

end Operators

/-! ### Calls -/

theorem typedAlike_checkArity (name : String) (expected got : Nat) :
    TypedAlike config.program (fun _ => True) (checkArity name expected got)
      (checkArity name expected got) :=
  .of_eq (related_checkArity (fun _ _ _ _ start => start) name expected got)

/-- An integer that is read is seen as the type it is read at. -/
theorem typedAlike_readValue (type : TypeId) :
    TypedAlike config.program (config.program.types.Canonical type) (config.readValue type)
      (config.readValue type) := by
  refine TypedAlike.readInteger.bind fun n _ => ?_
  cases n with
  | some n => exact .pure (canonical_view _ type n)
  | none => exact (TypedAlike.emit _).bind fun _ _ => .pure (canonical_view _ type 0)

/-- A primitive yields a value of the type that its declaration says. -/
theorem typedAlike_primitiveCall (h : config.WellTyped) {callee : FuncId} {primitive : Primitive}
    (declared : config.setup.primitive? callee = some primitive) (values : List Value) :
    TypedAlike config.program
      (config.program.types.Canonical (config.program.resultType callee))
      (config.primitiveCall primitive values (config.program.resultType callee))
      (config.primitiveCall primitive values (config.program.resultType callee)) := by
  have nothing (kind : primitive = .print ∨ primitive = .free) :
      config.program.types.Canonical (config.program.resultType callee) .zero :=
    TypeTable.canonical_int (h.nothing callee primitive declared kind) 0
  unfold primitiveCall
  refine (typedAlike_checkArity _ _ _).bind fun _ _ => ?_
  cases primitive with
  | read =>
    dsimp only
    split
    · exact (TypedAlike.println _).bind fun _ _ => typedAlike_readValue _
    · exact typedAlike_readValue _
  | print => exact (TypedAlike.println _).bind fun _ _ => .pure (nothing (.inl rfl))
  | allocate =>
    exact (TypedAlike.allocate _ _).bind fun base _ => .pure (canonical_view _ _ base.toCell)
  | free => exact (TypedAlike.release _).discard.bind fun _ _ => .pure (nothing (.inr rfl))

/-- Parameters are bound to arguments as their types see them. -/
theorem typedAlike_bindParams (params : List VarId) (values : List Value) :
    TypedAlike config.program (fun _ => True) (config.bindParams params values)
      (config.bindParams params values) := by
  induction params generalizing values with
  | nil => exact .pure trivial
  | cons var vars ih =>
    cases values with
    | nil => exact .pure trivial
    | cons value values =>
      refine (TypedAlike.ofOption _).bind fun decl found => ?_
      refine (TypedAlike.bindVar ?_).bind fun _ _ => ih values
      rw [Program.varType_of_var? found]
      exact canonical_view _ decl.type value.cell

section Calls

variable {exec exec' : StmtId → Action Completion}
  (hexec : ∀ id, TypedAlike config.program (fun _ => True) (exec id) (exec' id))
include hexec

/-- An activation is typed when the execution of its body is. -/
theorem typedAlike_activation (params : List VarId) (values : List Value) (body : StmtId) :
    TypedAlike config.program (fun _ => True) (config.activation exec params values body)
      (config.activation exec' params values body) := by
  have bodies : TypedAlike config.program (fun _ => True)
      (config.boundBody exec params values body) (config.boundBody exec' params values body) :=
    (typedAlike_bindParams params values).bind fun _ _ => (hexec body).discard
  rintro s _ ⟨rfl, start⟩
  refine matching_activation ⟨rfl, start.push⟩ (Related.weaken bodies fun _ _ same => same.1)
    (fun s t inside => TypedAlike.popFrame inside) fun fault s t inside => ?_
  exact Related.weaken TypedAlike.popFrame (fun _ _ _ => trivial) inside

/-- The result of a call is read at the type of the call. -/
theorem typedAlike_functionCall (callee : FuncId) (values : List Value) (type : TypeId) :
    TypedAlike config.program (config.program.types.Canonical type)
      (config.functionCall exec callee values type)
      (config.functionCall exec' callee values type) := by
  refine (TypedAlike.ofOption _).bind fun decl _ => ?_
  cases decl.body with
  | none => exact .fail _
  | some body =>
    have depth : TypedAlike config.program (fun _ => True) config.checkDepth config.checkDepth :=
      .of_settles (Steps.settles_checkDepth fun _ _ _ start => start)
    refine (typedAlike_checkArity _ _ _).bind fun _ _ => depth.bind fun _ _ => ?_
    exact (typedAlike_activation hexec decl.params values body).bind fun ret _ =>
      .pure (canonical_view _ type ret.cell)

end Calls

/-! ### Expressions -/

section Expressions

variable (h : config.WellTyped) {eval eval' : ExprId → Action Value}
  {invoke invoke' : FuncId → List Value → TypeId → Action Value}
  (heval : ∀ id, TypedAlike config.program (config.program.MayHave id) (eval id) (eval' id))
  (hinvoke : ∀ callee values type, TypedAlike config.program
    (config.program.types.Canonical type) (invoke callee values type) (invoke' callee values type))
include h heval hinvoke

/-- A call yields a value of the type its node has. -/
theorem typedAlike_call {id : ExprId} {callee : FuncId} {args : List ExprId} {type : TypeId}
    (found : config.program.expr? id = some ⟨.call callee args, type⟩) :
    TypedAlike config.program (config.program.types.Canonical type)
      (config.call eval invoke id callee args type)
      (config.call eval' invoke' id callee args type) := by
  refine (TypedAlike.emit _).bind fun _ _ => (typedAlike_args heval args).bind fun values _ => ?_
  refine (TypedAlike.emit _).bind fun _ _ => ?_
  cases declared : config.setup.primitive? callee with
  | some primitive =>
    rw [h.fit.call found]
    exact typedAlike_primitiveCall h declared values
  | none => exact hinvoke callee values type

/-- The value of an expression is one that the expression may have. -/
theorem typedAlike_expression {id : ExprId} {expr : Expr}
    (found : config.program.expr? id = some expr) :
    TypedAlike config.program (config.program.MayHave id)
      (config.expression eval invoke id expr) (config.expression eval' invoke' id expr) := by
  have of_canonical (value : Value) (canonical : config.program.types.Canonical expr.type value) :
      config.program.MayHave id value := Program.mayHave_of_canonical found canonical
  obtain ⟨form, type⟩ := expr
  cases form with
  | ident var =>
    rw [h.fit.ident found] at of_canonical
    exact (typedAlike_varValue var).weaken of_canonical
  | intLit n =>
    refine .pure (of_canonical _ ?_)
    rw [h.fit.intLit found]
    exact TypeTable.canonical_int (.inl h.fit.int) n
  | charLit byte =>
    refine .pure (of_canonical _ ?_)
    rw [h.fit.charLit found]
    exact TypeTable.canonical_char h.fit.char byte.toInt8
  | sizeOf operand =>
    refine .pure (of_canonical _ ?_)
    rw [h.fit.sizeOf found]
    exact TypeTable.canonical_int (.inl h.fit.int) 8
  | strLit name => exact .fail _
  | paren inner =>
    refine (heval inner).weaken fun value may notCast => ?_
    rw [Program.exprType_of_expr? found, h.fit.paren found]
    exact may fun cast => notCast (.paren found cast)
  | unary op operand => exact (typedAlike_unary heval op operand type).weaken of_canonical
  | binary op left right => exact (typedAlike_binary h heval found).weaken of_canonical
  | index base index =>
    refine (typedAlike_subscript heval base index).bind fun address _ => ?_
    exact (typedAlike_loadAt address type).weaken of_canonical
  | call callee args => exact (typedAlike_call h heval hinvoke found).weaken of_canonical
  | cast conversion target operand =>
    exact (heval operand).weaken fun value _ notCast => absurd (.cast found) notCast

/-- An evaluation yields a value the node may have. -/
theorem typedAlike_evaluation (id : ExprId) :
    TypedAlike config.program (config.program.MayHave id) (config.evaluation eval invoke id)
      (config.evaluation eval' invoke' id) :=
  (TypedAlike.ofOption _).bind fun _ found =>
    (typedAlike_expression h heval hinvoke found).bind fun _ may =>
      (TypedAlike.record may).bind fun _ _ => .pure may

end Expressions

/-! ### Statements -/

section Statements

variable {eval eval' : ExprId → Action Value} {exec exec' : StmtId → Action Completion}
  {loop loop' : ExprId → StmtId → Option ExprId → Action Completion}
  (heval : ∀ id, TypedAlike config.program (config.program.MayHave id) (eval id) (eval' id))
  (hexec : ∀ id, TypedAlike config.program (fun _ => True) (exec id) (exec' id))
  (hloop : ∀ cond body step, TypedAlike config.program (fun _ => True) (loop cond body step)
    (loop' cond body step))

include heval in
/-- The start value of a variable has the type of the variable. -/
theorem typedAlike_startValue (decl : VarDecl) :
    TypedAlike config.program (config.program.types.Canonical decl.type)
      (config.startValue eval decl) (config.startValue eval' decl) := by
  unfold startValue
  split
  · next array =>
    refine (TypedAlike.allocate _ _).bind fun base _ => ?_
    have adopted : TypedAlike config.program (fun _ => True)
        (Action.modifyTop (·.adopt base)) (Action.modifyTop (·.adopt base)) :=
      .modifyTop fun _ typed => ⟨typed.bindings, typed.records⟩
    exact adopted.bind fun _ _ => .pure (TypeTable.canonical_array array base)
  · cases decl.init with
    | some init => exact (heval init).bind fun v _ => .pure (canonical_view _ decl.type v.cell)
    | none => exact .pure (canonical_view _ decl.type 0)

include heval in
/-- A variable comes to life with a value of its type. -/
theorem typedAlike_declare (var : VarId) :
    TypedAlike config.program (fun _ => True) (config.declare eval var)
      (config.declare eval' var) := by
  refine (TypedAlike.ofOption _).bind fun decl found => ?_
  refine (typedAlike_startValue heval decl).bind fun value canonical => ?_
  refine (TypedAlike.emit _).bind fun _ _ => .bindVar ?_
  rw [Program.varType_of_var? found]
  exact canonical

include heval in
theorem typedAlike_declareAll (vars : List VarId) :
    TypedAlike config.program (fun _ => True) (config.declareAll eval vars)
      (config.declareAll eval' vars) := by
  induction vars with
  | nil => exact .pure trivial
  | cons var vars ih => exact (typedAlike_declare heval var).bind fun _ _ => ih

include hexec in
theorem typedAlike_compound (stmts : List StmtId) :
    TypedAlike config.program (fun _ => True) (Config.compound exec stmts)
      (Config.compound exec' stmts) := by
  induction stmts with
  | nil => exact .pure trivial
  | cons stmt stmts ih =>
    refine (hexec stmt).bind fun completion _ => ?_
    cases completion with
    | completed => exact ih
    | returned value => exact .pure trivial

include heval hexec in
theorem typedAlike_branch (cond : ExprId) (yes : StmtId) (no : Option StmtId) :
    TypedAlike config.program (fun _ => True) (Config.branch eval exec cond yes no)
      (Config.branch eval' exec' cond yes no) := by
  refine (heval cond).bind fun v _ => ?_
  split
  · exact hexec yes
  · cases no with
    | some stmt => exact hexec stmt
    | none => exact .pure trivial

include heval in
/-- The value to return may have any type, as it is read again when the call returns. -/
theorem typedAlike_returnWith (value : Option ExprId) :
    TypedAlike config.program (fun _ => True) (Config.returnWith eval value)
      (Config.returnWith eval' value) := by
  have returning (v : Value) : TypedAlike config.program (fun _ => True)
      (Action.modifyTop (·.returning v)) (Action.modifyTop (·.returning v)) :=
    .modifyTop fun _ typed => ⟨typed.bindings, typed.records⟩
  have finish (v : Value) : TypedAlike config.program (fun _ => True)
      (do
        Action.modifyTop (·.returning v)
        pure (Completion.returned v))
      (do
        Action.modifyTop (·.returning v)
        pure (Completion.returned v)) :=
    (returning v).bind fun _ _ => .pure trivial
  cases value with
  | some expr => exact (heval expr).bind fun v _ => finish v
  | none => exact finish .zero

include heval hexec hloop in
theorem typedAlike_iteration (cond : ExprId) (body : StmtId) (step : Option ExprId) :
    TypedAlike config.program (fun _ => True) (Config.iteration eval exec loop cond body step)
      (Config.iteration eval' exec' loop' cond body step) := by
  refine (heval cond).bind fun v _ => ?_
  split
  · refine (hexec body).bind fun completion _ => ?_
    cases completion with
    | returned value => exact .pure trivial
    | completed =>
      cases step with
      | some expr => exact (heval expr).discard.bind fun _ _ => hloop cond body _
      | none => exact hloop cond body none
  · exact .pure trivial

include hexec hloop in
theorem typedAlike_forLoop (start : Option StmtId) (cond step : Option ExprId) (body : StmtId) :
    TypedAlike config.program (fun _ => True) (Config.forLoop exec loop start cond step body)
      (Config.forLoop exec' loop' start cond step body) := by
  have rest (completion : Completion) : TypedAlike config.program (fun _ => True)
      (Config.afterStart loop cond step body completion)
      (Config.afterStart loop' cond step body completion) := by
    cases completion with
    | returned value => exact .pure trivial
    | completed =>
      cases cond with
      | some cond => exact hloop cond body step
      | none => exact .fail _
  cases start with
  | some stmt => exact (hexec stmt).bind fun completion _ => rest completion
  | none => exact rest .completed

include heval hexec hloop in
/-- The execution of a node is typed when the evaluations, executions and turns below it are. -/
theorem typedAlike_execution (id : StmtId) :
    TypedAlike config.program (fun _ => True) (config.execution eval exec loop id)
      (config.execution eval' exec' loop' id) := by
  refine (TypedAlike.ofOption _).bind fun stmt _ => (TypedAlike.emit _).bind fun _ _ => ?_
  cases stmt with
  | decl vars => exact (typedAlike_declareAll heval vars).bind fun _ _ => .pure trivial
  | expr expr => exact (heval expr).discard.bind fun _ _ => .pure trivial
  | branch cond yes no => exact typedAlike_branch heval hexec cond yes no
  | «while» cond body => exact hloop cond body none
  | «for» start cond step body => exact typedAlike_forLoop hexec hloop start cond step body
  | «return» value => exact typedAlike_returnWith heval value
  | compound stmts => exact typedAlike_compound hexec stmts
  | «break» | «continue» => exact .fail _

end Statements

/-! ### Runs -/

section Runs

variable {eval eval' : ExprId → Action Value}
  {invoke invoke' : FuncId → List Value → TypeId → Action Value}
  (heval : ∀ id, TypedAlike config.program (config.program.MayHave id) (eval id) (eval' id))
  (hinvoke : ∀ callee values type, TypedAlike config.program
    (config.program.types.Canonical type) (invoke callee values type) (invoke' callee values type))
include heval

theorem typedAlike_readyGlobals :
    TypedAlike config.program (fun _ => True) (config.readyGlobals eval)
      (config.readyGlobals eval') := by
  have bring : TypedAlike config.program (fun _ => True)
      (do
        config.declareAll eval config.setup.globals
        modify fun state => { state with globalsReady := true })
      (do
        config.declareAll eval' config.setup.globals
        modify fun state => { state with globalsReady := true }) :=
    (typedAlike_declareAll heval _).bind fun _ _ => .of_settles fun _ start => .ok start
  rintro s _ ⟨rfl, start⟩
  unfold readyGlobals
  rw [Action.run_get_bind, Action.run_get_bind]
  split
  · exact bring ⟨rfl, start⟩
  · exact .ok ⟨rfl, trivial⟩ ⟨rfl, start⟩

include hinvoke in
/-- A run yields a value of the type that the entry point's declaration says. -/
theorem typedAlike_running :
    TypedAlike config.program
      (config.program.types.Canonical (config.program.resultType config.setup.entry))
      (config.running eval invoke) (config.running eval' invoke') := by
  refine (TypedAlike.emit _).bind fun _ _ => (typedAlike_readyGlobals heval).bind fun _ _ => ?_
  refine (TypedAlike.ofOption _).bind fun decl found => ?_
  rw [Program.resultType_of_func? found]
  refine (hinvoke _ _ decl.ret).bind fun value canonical => ?_
  exact (TypedAlike.emit _).bind fun _ _ => .pure canonical

end Runs

end Config

end CellC
