import CellC.Proofs.Related
import Mathlib.Data.List.Forall2

/-!
# Corresponding evaluations

Every rule of evaluation and execution is put together from few steps of the machine. Two
configurations of one program correspond with respect to a relation between states if each of these
steps keeps it; then whole evaluations and executions keep it too, at any number of levels.

The relation comes as a family: within an activation it may say something else about the frames
below than outside of it.

## Main definitions

* `Correspondence`: what the steps of the machine have to keep
* `Event.IsRemark`: the events that report nothing about frames and memory

## Main results

* `Correspondence.expression`, `Correspondence.statement`: the rules keep what the steps keep
* `Correspondence.eval`, `Correspondence.exec`, `Correspondence.functionCall`: so do whole trees
-/

namespace CellC

/-- The events that report neither a change of the frames or the memory nor the start of a call's
body. -/
def Event.IsRemark : Event → Bool
  | scan | setup _ _ _ | run | entryReturned _ | call _ | exec _ | declare _ _ => true
  | malformedInput _ _ | inputUnavailable => true
  | dispatch _ _ | push _ | pop _ _ | allocate _ _ _ | release _ _ | releaseMissing _ => false

/-- Makes an array that belongs to the innermost activation. -/
def Action.newArray (size : Cell) : Action Value := do
  let base ← Action.allocate size .array
  Action.modifyTop (·.adopt base)
  pure (.array base)

/-- A call of a primitive with its announcement in the journal. -/
def Config.dispatchPrimitive (config : Config) (id : ExprId) (primitive : Primitive)
    (values : List Value) (type : TypeId) : Action Value := do
  Action.emit (.dispatch id values)
  config.primitiveCall primitive values type

open CellC.Action (Related)

/-- The steps of the machine keep the relation `S i` between states, fault in states related by
`E i`, and yield values related by `V`, which have the same cell. -/
structure Correspondence (config config' : Config) {ι : Type} (S : ι → State → State → Prop)
    (E : ι → Fault → State → State → Prop) (V : Value → Value → Prop) : Prop where
  program : config'.program = config.program
  setup : config'.setup = config.setup
  refl : ∀ value, V value value
  cell : ∀ {v w}, V v w → v.cell = w.cell
  fault : ∀ {i fault s t}, fault ≠ .noCall → S i s t → E i fault s t
  remark : ∀ i {event}, event.IsRemark = true →
    Related (S i) (E i) (· = ·) (Action.emit event) (Action.emit event)
  varValue : ∀ i var, Related (S i) (E i) V (config.varValue var) (config'.varValue var)
  assignVar : ∀ i var value,
    Related (S i) (E i) (· = ·) (config.assignVar var value) (config'.assignVar var value)
  loadAt : ∀ i address type,
    Related (S i) (E i) V (config.loadAt address type) (config'.loadAt address type)
  storeAt : ∀ i address type value,
    Related (S i) (E i) (· = ·) (config.storeAt address type value)
      (config'.storeAt address type value)
  record : ∀ i expr {v w}, V v w →
    Related (S i) (E i) (· = ·) (Action.record expr v) (Action.record expr w)
  bind : ∀ i var value,
    Related (S i) (E i) (· = ·) (Action.bind var value) (Action.bind var value)
  returning : ∀ i {v w}, V v w →
    Related (S i) (E i) (· = ·) (Action.modifyTop (·.returning v))
      (Action.modifyTop (·.returning w))
  newArray : ∀ i size, Related (S i) (E i) (· = ·) (Action.newArray size) (Action.newArray size)
  primitive : ∀ i id callee args type primitive values values',
    config.program.expr? id = some ⟨.call callee args, type⟩ →
    config.setup.primitive? callee = some primitive → List.Forall₂ V values values' →
    Related (S i) (E i) V (config.dispatchPrimitive id primitive values type)
      (config'.dispatchPrimitive id primitive values' type)
  dispatch : ∀ i id callee args type values values',
    config.program.expr? id = some ⟨.call callee args, type⟩ →
    config.setup.primitive? callee = none → List.Forall₂ V values values' →
    Related (S i) (E i) (· = ·) (Action.emit (.dispatch id values))
      (Action.emit (.dispatch id values'))
  checkDepth : ∀ i, Related (S i) (E i) (· = ·) config.checkDepth config'.checkDepth
  activation : ∀ i (exec exec' : StmtId → Action Completion) params values values' body,
    (∀ j stmt, Related (S j) (E j) (Completion.Related V) (exec stmt) (exec' stmt)) →
    values.map Value.cell = values'.map Value.cell →
    Related (S i) (E i) V (config.activation exec params values body)
      (config'.activation exec' params values' body)

namespace Correspondence

variable {config config' : Config} {ι : Type} {S : ι → State → State → Prop}
  {E : ι → Fault → State → State → Prop} {V : Value → Value → Prop}

section Operators

variable (h : Correspondence config config' S E V) {i : ι} {eval eval' : ExprId → Action Value}
  (heval : ∀ id, Related (S i) (E i) V (eval id) (eval' id))
include h

/-- Both programs type their expressions over the same table. -/
theorem types : config'.types = config.types := congrArg Program.types h.program

/-- Elements are equally wide on both sides, so steps of pointers are as well. -/
theorem elementStride (type : TypeId) : config'.elementStride type = config.elementStride type := by
  unfold Config.elementStride
  rw [h.types]

theorem scaled (op : BinaryOp) (left right : TypeId) (a b : Cell) :
    config'.scaled op left right a b = config.scaled op left right a b := by
  unfold Config.scaled
  rw [h.types]

/-- Related values carry the same bits, which is all an address reads. -/
theorem address {v w : Value} (values : V v w) : v.address = w.address :=
  congrArg Address.ofCell (h.cell values)

/-- Related values take the same branches. -/
theorem isTrue {v w : Value} (values : V v w) : v.isTrue = w.isTrue := by
  unfold Value.isTrue
  rw [h.cell values]

/-- An operator on cells does the same on both sides. -/
theorem ofExcept {outcome : Except Fault Cell}
    (faulty : ∀ fault, outcome = .error fault → fault ≠ .noCall) :
    Related (S i) (E i) (· = ·) (Action.ofExcept outcome) (Action.ofExcept outcome) :=
  .ofExcept fun fault failed _ _ start => h.fault (faulty fault failed) start

theorem fail {α β : Type} {W : α → β → Prop} {fault : Fault} (other : fault ≠ .noCall) :
    Related (S i) (E i) W (Action.fail fault) (Action.fail fault) :=
  .fail fun _ _ start => h.fault other start

include heval

/-- Subscripts agree on the address, which is equal and not only related. -/
theorem subscript (base index : ExprId) :
    Related (S i) (E i) (· = ·) (config.subscript eval base index)
      (config'.subscript eval' base index) := by
  refine (heval base).bind fun start start' starts => ?_
  refine (heval index).bind fun position position' positions => ?_
  rw [h.program, h.elementStride, h.address starts, h.cell positions]
  exact .pure rfl

theorem unary (op : UnaryOp) (operand : ExprId) (type : TypeId) :
    Related (S i) (E i) V (config.unary eval op operand type)
      (config'.unary eval' op operand type) := by
  have applied (faulty : ∀ cell fault, op.apply cell = .error fault → fault ≠ .noCall) :
      Related (S i) (E i) V
        (do
          let cell ← Action.ofExcept (op.apply (← eval operand).cell)
          pure (config.types.view type cell))
        (do
          let cell ← Action.ofExcept (op.apply (← eval' operand).cell)
          pure (config'.types.view type cell)) := by
    refine (heval operand).bind fun v w values => ?_
    rw [h.cell values, h.types]
    exact (h.ofExcept (faulty _)).bind_eq fun cell => .pure (h.refl _)
  cases op with
  | addrOf => exact h.fail (by simp)
  | deref =>
    refine (heval operand).bind fun v w values => ?_
    rw [h.address values]
    exact h.loadAt i _ type
  | neg | plus | bitNot | not => exact applied (by simp [UnaryOp.apply])

/-- Assignments agree: the targets are the same node on both sides, and what is stored is related.
-/
theorem assign (target value : ExprId) :
    Related (S i) (E i) V (config.assign eval target value)
      (config'.assign eval' target value) := by
  refine (heval value).bind fun v w values => ?_
  rw [h.program, h.types, h.cell values]
  refine (Related.ofOption _).bind_eq fun node => ?_
  have finish : Related (S i) (E i) V
      (do
        Action.record (config.program.unparen target) (config.types.view node.type w.cell)
        pure (config.types.view node.type w.cell))
      (do
        Action.record (config.program.unparen target) (config.types.view node.type w.cell)
        pure (config.types.view node.type w.cell)) :=
    (h.record i _ (h.refl _)).bind_eq fun _ => .pure (h.refl _)
  cases node.form with
  | ident var => exact (h.assignVar i var _).bind_eq fun _ => finish
  | index base index =>
    exact (h.subscript heval base index).bind_eq fun address =>
      (h.storeAt i address _ _).bind_eq fun _ => finish
  | unary op operand =>
    cases op with
    | deref =>
      refine (heval operand).bind fun v w values => ?_
      rw [h.address values]
      exact (h.storeAt i _ _ _).bind_eq fun _ => finish
    | neg | plus | bitNot | not | addrOf => exact (h.fail (by simp)).bind_eq fun _ => finish
  | intLit | charLit | strLit | paren | sizeOf | binary | call | cast =>
    exact (h.fail (by simp)).bind_eq fun _ => finish

theorem binary (op : BinaryOp) (left right : ExprId) (type : TypeId) :
    Related (S i) (E i) V (config.binary eval op left right type)
      (config'.binary eval' op left right type) := by
  unfold Config.binary
  split
  · exact h.fail (by simp)
  split
  · exact h.assign heval left right
  -- Only the cells of the operands count from here on, and they are the same on both sides.
  refine (heval left).bind fun x x' xs => ?_
  refine (heval right).bind fun y y' ys => ?_
  rw [h.program, h.scaled, h.types, h.cell xs, h.cell ys]
  refine (h.ofExcept fun fault failed => ?_).bind_eq fun cell => .pure (h.refl _)
  rintro rfl
  cases op <;> simp [BinaryOp.apply] at failed
  split at failed <;> cases failed

omit h in
/-- Argument lists are evaluated to lists that are related value by value. -/
theorem args (exprs : List ExprId) :
    Related (S i) (E i) (List.Forall₂ V) (Config.args eval exprs) (Config.args eval' exprs) := by
  induction exprs with
  | nil => exact .pure .nil
  | cons expr exprs ih =>
    exact (heval expr).bind fun v w value => ih.bind fun vs ws values => .pure (.cons value values)

end Operators

section Rules

variable (h : Correspondence config config' S E V) {i : ι} {eval eval' : ExprId → Action Value}
  {exec exec' : StmtId → Action Completion}
  {loop loop' : ExprId → StmtId → Option ExprId → Action Completion}
  {invoke invoke' : FuncId → List Value → TypeId → Action Value}
  (heval : ∀ id, Related (S i) (E i) V (eval id) (eval' id))
  (hexec : ∀ id, Related (S i) (E i) (Completion.Related V) (exec id) (exec' id))
  (hloop : ∀ cond body step,
    Related (S i) (E i) (Completion.Related V) (loop cond body step) (loop' cond body step))
  (hinvoke : ∀ callee values values' type, values.map Value.cell = values'.map Value.cell →
    Related (S i) (E i) V (invoke callee values type) (invoke' callee values' type))
include h

/-- Arguments with related values have the same cells. -/
theorem cells {values values' : List Value} (related : List.Forall₂ V values values') :
    values.map Value.cell = values'.map Value.cell := by
  induction related with
  | nil => rfl
  | cons value _ ih => rw [List.map_cons, List.map_cons, h.cell value, ih]

/-! ### Expressions -/

include heval hinvoke in
/-- Calls agree: the value a call records goes to the same node on both sides. -/
theorem call {id : ExprId} {callee : FuncId} {args : List ExprId} {type : TypeId}
    (found : config.program.expr? id = some ⟨.call callee args, type⟩) :
    Related (S i) (E i) V (config.call eval invoke id callee args type)
      (config'.call eval' invoke' id callee args type) := by
  refine (h.remark i rfl).bind_eq fun _ => (Correspondence.args heval args).bind ?_
  intro values values' related
  rw [h.setup]
  cases hcallee : config.setup.primitive? callee with
  | some primitive => exact h.primitive i id callee args type primitive _ _ found hcallee related
  | none =>
    exact (h.dispatch i id callee args type _ _ found hcallee related).bind_eq fun _ =>
      hinvoke callee _ _ type (h.cells related)

include heval hinvoke in
/-- The rule for an expression keeps what its parts keep. -/
theorem expression {id : ExprId} {expr : Expr} (found : config.program.expr? id = some expr) :
    Related (S i) (E i) V (config.expression eval invoke id expr)
      (config'.expression eval' invoke' id expr) := by
  obtain ⟨form, type⟩ := expr
  cases form with
  | ident var => exact h.varValue i var
  | intLit | charLit | sizeOf => exact .pure (h.refl _)
  | strLit name => exact h.fail (by simp)
  | paren inner => exact heval inner
  | unary op operand => exact h.unary heval op operand type
  | binary op left right => exact h.binary heval op left right type
  | index base index =>
    exact (h.subscript heval base index).bind_eq fun address => h.loadAt i address type
  | call callee args => exact h.call heval hinvoke found
  | cast conversion target operand => exact heval operand

include heval hinvoke in
/-- The evaluation of a node agrees when the evaluations and calls one level down do. -/
theorem evaluation (id : ExprId) :
    Related (S i) (E i) V (config.evaluation eval invoke id)
      (config'.evaluation eval' invoke' id) := by
  unfold Config.evaluation
  rw [h.program]
  intro s t start
  cases found : config.program.expr? id with
  | none => exact .dangling
  | some expr =>
    have rule : Related (S i) (E i) V
        (do
          let value ← config.expression eval invoke id expr
          Action.record id value
          pure value)
        (do
          let value ← config'.expression eval' invoke' id expr
          Action.record id value
          pure value) :=
      (h.expression heval hinvoke found).bind fun v w values =>
        (h.record i id values).bind_eq fun _ => .pure values
    exact rule start

/-! ### Statements -/

include heval in
theorem startValue (decl : VarDecl) :
    Related (S i) (E i) (· = ·) (config.startValue eval decl) (config'.startValue eval' decl) := by
  unfold Config.startValue
  rw [h.types]
  split
  · exact h.newArray i _
  split
  · refine (heval _).bind fun v w values => ?_
    rw [h.cell values]
    exact .pure rfl
  · exact .pure rfl

include heval in
/-- Declarations agree: they bind the same name, to a start value that is related. -/
theorem declare (var : VarId) :
    Related (S i) (E i) (· = ·) (config.declare eval var) (config'.declare eval' var) := by
  unfold Config.declare
  rw [h.program]
  refine (Related.ofOption _).bind_eq fun decl => ?_
  refine (h.startValue heval decl).bind_eq fun value => ?_
  exact (h.remark i rfl).bind_eq fun _ => h.bind i var value

include heval in
theorem declareAll (vars : List VarId) :
    Related (S i) (E i) (· = ·) (config.declareAll eval vars) (config'.declareAll eval' vars) := by
  induction vars with
  | nil => exact .pure rfl
  | cons var vars ih => exact (h.declare heval var).bind_eq fun _ => ih

omit h in
include hexec in
/-- Compound statements agree, and they stop at the same statement. -/
theorem compound (stmts : List StmtId) :
    Related (S i) (E i) (Completion.Related V) (Config.compound exec stmts)
      (Config.compound exec' stmts) := by
  induction stmts with
  | nil => exact .pure .completed
  | cons stmt stmts ih =>
    refine (hexec stmt).bind fun c c' ended => ?_
    cases ended with
    | completed => exact ih
    | returned values => exact .pure (.returned values)

include heval hexec in
theorem branch (cond : ExprId) (yes : StmtId) (no : Option StmtId) :
    Related (S i) (E i) (Completion.Related V) (Config.branch eval exec cond yes no)
      (Config.branch eval' exec' cond yes no) := by
  refine (heval cond).bind fun v w values => ?_
  rw [h.isTrue values]
  split
  · exact hexec yes
  cases no with
  | some stmt => exact hexec stmt
  | none => exact .pure .completed

include heval in
theorem returnWith (value : Option ExprId) :
    Related (S i) (E i) (Completion.Related V) (Config.returnWith eval value)
      (Config.returnWith eval' value) := by
  have finish (v w : Value) (values : V v w) : Related (S i) (E i) (Completion.Related V)
      (do
        Action.modifyTop (·.returning v)
        pure (.returned v))
      (do
        Action.modifyTop (·.returning w)
        pure (.returned w)) :=
    (h.returning i values).bind_eq fun _ => .pure (.returned values)
  cases value with
  | some expr => exact (heval expr).bind finish
  | none => exact finish _ _ (h.refl _)

include heval hexec hloop in
/-- Turns of a loop agree when the turns after them do. -/
theorem iteration (cond : ExprId) (body : StmtId) (step : Option ExprId) :
    Related (S i) (E i) (Completion.Related V) (Config.iteration eval exec loop cond body step)
      (Config.iteration eval' exec' loop' cond body step) := by
  refine (heval cond).bind fun v w values => ?_
  rw [h.isTrue values]
  split
  · refine (hexec body).bind fun c c' ended => ?_
    cases ended with
    | returned values => exact .pure (.returned values)
    | completed =>
      cases step with
      | some expr => exact (heval expr).discard.bind_eq fun _ => hloop cond body _
      | none => exact hloop cond body none
  · exact .pure .completed

include hloop in
theorem afterStart (cond step : Option ExprId) (body : StmtId) {c c' : Completion}
    (ended : Completion.Related V c c') :
    Related (S i) (E i) (Completion.Related V) (Config.afterStart loop cond step body c)
      (Config.afterStart loop' cond step body c') := by
  cases ended with
  | returned values => exact .pure (.returned values)
  | completed =>
    cases cond with
    | some cond => exact hloop cond body step
    | none => exact h.fail (by simp)

include hexec hloop in
theorem forLoop (start : Option StmtId) (cond step : Option ExprId) (body : StmtId) :
    Related (S i) (E i) (Completion.Related V) (Config.forLoop exec loop start cond step body)
      (Config.forLoop exec' loop' start cond step body) := by
  cases start with
  | some stmt => exact (hexec stmt).bind fun _ _ => h.afterStart hloop cond step body
  | none => exact h.afterStart hloop cond step body .completed

include heval hexec hloop in
/-- The rule for a statement keeps what its parts keep. -/
theorem statement (stmt : Stmt) :
    Related (S i) (E i) (Completion.Related V) (config.statement eval exec loop stmt)
      (config'.statement eval' exec' loop' stmt) := by
  cases stmt with
  | decl vars => exact (h.declareAll heval vars).bind_eq fun _ => .pure .completed
  | expr expr => exact (heval expr).discard.bind_eq fun _ => .pure .completed
  | branch cond yes no => exact h.branch heval hexec cond yes no
  | «while» cond body => exact hloop cond body none
  | «for» start cond step body => exact h.forLoop hexec hloop start cond step body
  | «return» value => exact h.returnWith heval value
  | compound stmts => exact Correspondence.compound hexec stmts
  | «break» | «continue» => exact h.fail (by simp)

include heval hexec hloop in
/-- The execution of a node agrees when the evaluations, executions and turns one level down do. -/
theorem execution (id : StmtId) :
    Related (S i) (E i) (Completion.Related V) (config.execution eval exec loop id)
      (config'.execution eval' exec' loop' id) := by
  unfold Config.execution
  rw [h.program]
  refine (Related.ofOption _).bind_eq fun stmt => ?_
  exact (h.remark i rfl).bind_eq fun _ => h.statement heval hexec hloop stmt

/-! ### Calls -/

/-- Calls with the same cells as arguments keep what the execution of bodies keeps. -/
theorem functionCall
    (hexec : ∀ j stmt, Related (S j) (E j) (Completion.Related V) (exec stmt) (exec' stmt))
    (callee : FuncId) {values values' : List Value} (type : TypeId)
    (cells : values.map Value.cell = values'.map Value.cell) :
    Related (S i) (E i) V (config.functionCall exec callee values type)
      (config'.functionCall exec' callee values' type) :=
  Config.related_functionCall h.program h.setup h.refl h.cell (fun _ _ _ => h.fault)
    (h.checkDepth i) (fun params body => h.activation i exec exec' params _ _ body hexec cells)
    callee type cells

end Rules

/-! ### Whole trees -/

section Trees

variable (h : Correspondence config config' S E V)
include h

/-- Evaluations, executions and loops keep the relation, at any number of levels. -/
theorem trees (levels : Nat) :
    (∀ i id, Related (S i) (E i) V (CellC.eval config levels id) (CellC.eval config' levels id)) ∧
    (∀ i id, Related (S i) (E i) (Completion.Related V) (CellC.exec config levels id)
      (CellC.exec config' levels id)) ∧
    (∀ i cond body step, Related (S i) (E i) (Completion.Related V)
      (CellC.loop config levels cond body step) (CellC.loop config' levels cond body step)) := by
  induction levels with
  | zero =>
    refine ⟨fun i id => ?_, fun i id => ?_, fun i cond body step => ?_⟩ <;>
      exact Related.throw_exhausted
  | succ levels ih =>
    -- All trees go along in one induction, as each level refers to the level below in all its
    -- parts.
    obtain ⟨heval, hexec, hloop⟩ := ih
    refine ⟨fun i id => ?_, fun i id => ?_, fun i cond body step => ?_⟩
    · exact h.evaluation (heval i) (fun callee _ _ => h.functionCall hexec callee) id
    · exact h.execution (heval i) (hexec i) (hloop i) id
    · exact h.iteration (heval i) (hexec i) (hloop i) cond body step

/-- Evaluations agree at every number of levels. -/
theorem eval (levels : Nat) (i : ι) (id : ExprId) :
    Related (S i) (E i) V (CellC.eval config levels id) (CellC.eval config' levels id) :=
  (h.trees levels).1 i id

/-- Executions agree at every number of levels, up to the values they return. -/
theorem exec (levels : Nat) (i : ι) (id : StmtId) :
    Related (S i) (E i) (Completion.Related V) (CellC.exec config levels id)
      (CellC.exec config' levels id) :=
  (h.trees levels).2.1 i id

end Trees

section Runs

variable (h : Correspondence config config' S E V) {i : ι} {eval eval' : ExprId → Action Value}
  {invoke invoke' : FuncId → List Value → TypeId → Action Value}
  (heval : ∀ id, Related (S i) (E i) V (eval id) (eval' id))
  (ready : ∀ s t, S i s t → t.globalsReady = s.globalsReady)
  (getReady : ∀ s t, S i s t →
    S i { s with globalsReady := true } { t with globalsReady := true })
include h heval ready getReady

/-- The file-scope variables are set up alike. -/
theorem readyGlobals :
    Related (S i) (E i) (· = ·) (config.readyGlobals eval) (config'.readyGlobals eval') := by
  intro s t start
  have bring : Related (S i) (E i) (· = ·)
      (do
        config.declareAll eval config.setup.globals
        modify fun state => { state with globalsReady := true })
      (do
        config'.declareAll eval' config'.setup.globals
        modify fun state => { state with globalsReady := true }) := by
    rw [h.setup]
    exact (h.declareAll heval _).bind_eq fun _ => .modify getReady
  unfold Config.readyGlobals
  rw [Action.run_get_bind, Action.run_get_bind]
  rw [ready s t start]
  split
  · exact bring start
  · exact .ok rfl start

/-- Runs keep the relation if it settles whether the file-scope variables are ready. -/
theorem running
    (hinvoke : ∀ callee values values' type, values.map Value.cell = values'.map Value.cell →
      Related (S i) (E i) V (invoke callee values type) (invoke' callee values' type))
    (returned : ∀ v w, V v w → Related (S i) (E i) (· = ·) (Action.emit (.entryReturned v))
      (Action.emit (.entryReturned w))) :
    Related (S i) (E i) V (config.running eval invoke) (config'.running eval' invoke') := by
  unfold Config.running
  rw [h.program, h.setup]
  refine (h.remark i rfl).bind_eq fun _ => ?_
  refine (h.readyGlobals heval ready getReady).bind_eq fun _ => ?_
  refine (Related.ofOption _).bind_eq fun decl => ?_
  refine (hinvoke _ _ _ decl.ret rfl).bind fun v w values => ?_
  exact (returned v w values).bind_eq fun _ => .pure values

end Runs

end Correspondence

end CellC
