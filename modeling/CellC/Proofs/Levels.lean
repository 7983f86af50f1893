import CellC.Proofs.Returns

/-!
# Levels

The number of levels bounds how deeply the rules may be nested. It decides whether a request returns
but not what it returns: with more levels at hand, whatever returned before returns likewise.

## Main definitions

* `Action.Approximates`: an action returns likewise wherever another one does
* `Config.Evaluates`: an expression evaluates, at some number of levels

## Main results

* `eval_mono`, `exec_mono`: more levels keep every answer
* `Config.Evaluates.unique`: an expression evaluates in one way
-/

namespace CellC

variable {α β : Type}

namespace Action

/-- Wherever `action` returns, `other` returns likewise. -/
def Approximates (action other : Action α) : Prop :=
  ∀ s result s', action.Returns s result s' → other.Returns s result s'

namespace Approximates

theorem refl (action : Action α) : Approximates action action :=
  fun _ _ _ run => run

/-- Nothing returns without levels. -/
theorem throw_exhausted (other : Action α) : Approximates (throw .exhausted) other := by
  intro s result s' run
  cases result <;> cases run

/-- An approximation of both parts is an approximation of the sequence. -/
protected theorem bind {action other : Action α} {next next' : α → Action β}
    (first : Approximates action other) (rest : ∀ a, Approximates (next a) (next' a)) :
    Approximates (action >>= next) (other >>= next') := by
  intro s result s' run
  rw [returns_bind_iff] at run ⊢
  rcases run with ⟨a, t, run, run'⟩ | ⟨fault, failed, run⟩
  · exact .inl ⟨a, t, first _ _ _ run, rest a _ _ _ run'⟩
  · exact .inr ⟨fault, failed, first _ _ _ run⟩

protected theorem discard {action other : Action α} (h : Approximates action other) :
    Approximates (discard action : Action Unit) (discard other) := by
  intro s result s' run
  unfold Returns at run ⊢
  rw [run_discard] at run ⊢
  cases outcome : action.run s with
  | ok a t =>
    have same : other.run s = .ok a t := h s (.ok a) t outcome
    rw [outcome] at run
    rw [same]
    exact run
  | error halt t =>
    rw [outcome] at run
    cases result with
    | ok u => cases run
    | error fault =>
      cases run
      have same : other.run s = .error (.fault fault) s' := h s (.error fault) s' outcome
      rw [same]

end Approximates

end Action

open CellC.Action (Approximates)

/-! ### Rules -/

namespace Config

variable {config : Config} {eval eval' : ExprId → Action Value}
  {exec exec' : StmtId → Action Completion}
  {loop loop' : ExprId → StmtId → Option ExprId → Action Completion}
  {invoke invoke' : FuncId → List Value → TypeId → Action Value}

section Expressions

variable (heval : ∀ id, Approximates (eval id) (eval' id))
include heval

/-- Subscripts keep their answer when their operands keep theirs. -/
theorem approximates_subscript (base index : ExprId) :
    Approximates (config.subscript eval base index) (config.subscript eval' base index) :=
  (heval base).bind fun _ => (heval index).bind fun _ => .refl _

theorem approximates_unary (op : UnaryOp) (operand : ExprId) (type : TypeId) :
    Approximates (config.unary eval op operand type) (config.unary eval' op operand type) := by
  cases op with
  | addrOf => exact .refl _
  | deref => exact (heval operand).bind fun _ => .refl _
  | neg | plus | bitNot | not => exact (heval operand).bind fun _ => .refl _

theorem approximates_assign (target value : ExprId) :
    Approximates (config.assign eval target value) (config.assign eval' target value) := by
  refine (heval value).bind fun v => Approximates.bind (.refl _) fun node => ?_
  cases node.form with
  | ident var => exact .refl _
  | index base index => exact (approximates_subscript heval base index).bind fun _ => .refl _
  | unary op operand =>
    cases op with
    | deref => exact (heval operand).bind fun _ => .refl _
    | neg | plus | bitNot | not | addrOf => exact .refl _
  | intLit | charLit | strLit | paren | sizeOf | binary | call | cast => exact .refl _

theorem approximates_binary (op : BinaryOp) (left right : ExprId) (type : TypeId) :
    Approximates (config.binary eval op left right type)
      (config.binary eval' op left right type) := by
  unfold binary
  split
  · exact .refl _
  split
  · exact approximates_assign heval left right
  · exact (heval left).bind fun _ => (heval right).bind fun _ => .refl _

/-- Argument lists keep their answer, argument by argument. -/
theorem approximates_args (exprs : List ExprId) :
    Approximates (Config.args eval exprs) (Config.args eval' exprs) := by
  induction exprs with
  | nil => exact .refl _
  | cons expr exprs ih => exact (heval expr).bind fun _ => ih.bind fun _ => .refl _

variable (hinvoke : ∀ callee values type,
  Approximates (invoke callee values type) (invoke' callee values type))
include hinvoke

theorem approximates_call (id : ExprId) (callee : FuncId) (args : List ExprId) (type : TypeId) :
    Approximates (config.call eval invoke id callee args type)
      (config.call eval' invoke' id callee args type) := by
  refine Approximates.bind (.refl _) fun _ => ?_
  refine (approximates_args heval args).bind fun values => ?_
  refine Approximates.bind (.refl _) fun _ => ?_
  cases config.setup.primitive? callee with
  | some primitive => exact .refl _
  | none => exact hinvoke callee values type

/-- Each form of expression keeps its answer when the evaluations and calls below it do. -/
theorem approximates_expression (id : ExprId) (expr : Expr) :
    Approximates (config.expression eval invoke id expr)
      (config.expression eval' invoke' id expr) := by
  obtain ⟨form, type⟩ := expr
  cases form with
  | ident | intLit | charLit | strLit | sizeOf => exact .refl _
  | paren inner => exact heval inner
  | unary op operand => exact approximates_unary heval op operand type
  | binary op left right => exact approximates_binary heval op left right type
  | index base index => exact (approximates_subscript heval base index).bind fun _ => .refl _
  | call callee args => exact approximates_call heval hinvoke id callee args type
  | cast conversion target operand => exact heval operand

/-- A node keeps its answer, and what is recorded for it. -/
theorem approximates_evaluation (id : ExprId) :
    Approximates (config.evaluation eval invoke id) (config.evaluation eval' invoke' id) :=
  Approximates.bind (.refl _) fun expr =>
    (approximates_expression heval hinvoke id expr).bind fun _ => .refl _

end Expressions

section Statements

variable (heval : ∀ id, Approximates (eval id) (eval' id))
  (hexec : ∀ id, Approximates (exec id) (exec' id))
  (hloop : ∀ cond body step, Approximates (loop cond body step) (loop' cond body step))

include heval in
theorem approximates_declare (var : VarId) :
    Approximates (config.declare eval var) (config.declare eval' var) := by
  refine Approximates.bind (.refl _) fun decl => Approximates.bind ?_ fun _ => .refl _
  unfold startValue
  split
  · exact .refl _
  · cases decl.init with
    | some init => exact (heval init).bind fun _ => .refl _
    | none => exact .refl _

include heval in
theorem approximates_declareAll (vars : List VarId) :
    Approximates (config.declareAll eval vars) (config.declareAll eval' vars) := by
  induction vars with
  | nil => exact .refl _
  | cons var vars ih => exact (approximates_declare heval var).bind fun _ => ih

include hexec in
theorem approximates_compound (stmts : List StmtId) :
    Approximates (Config.compound exec stmts) (Config.compound exec' stmts) := by
  induction stmts with
  | nil => exact .refl _
  | cons stmt stmts ih =>
    refine (hexec stmt).bind fun completion => ?_
    cases completion with
    | returned value => exact .refl _
    | completed => exact ih

include heval hexec in
theorem approximates_branch (cond : ExprId) (yes : StmtId) (no : Option StmtId) :
    Approximates (Config.branch eval exec cond yes no) (Config.branch eval' exec' cond yes no) := by
  refine (heval cond).bind fun v => ?_
  split
  · exact hexec yes
  · cases no with
    | some stmt => exact hexec stmt
    | none => exact .refl _

include heval in
theorem approximates_returnWith (value : Option ExprId) :
    Approximates (Config.returnWith eval value) (Config.returnWith eval' value) := by
  cases value with
  | some expr => exact (heval expr).bind fun _ => .refl _
  | none => exact .refl _

include heval hexec hloop in
theorem approximates_iteration (cond : ExprId) (body : StmtId) (step : Option ExprId) :
    Approximates (Config.iteration eval exec loop cond body step)
      (Config.iteration eval' exec' loop' cond body step) := by
  refine (heval cond).bind fun v => ?_
  split
  · refine (hexec body).bind fun completion => ?_
    cases completion with
    | returned value => exact .refl _
    | completed =>
      cases step with
      | some expr => exact (heval expr).discard.bind fun _ => hloop cond body _
      | none => exact hloop cond body none
  · exact .refl _

include hexec hloop in
theorem approximates_forLoop (start : Option StmtId) (cond step : Option ExprId) (body : StmtId) :
    Approximates (Config.forLoop exec loop start cond step body)
      (Config.forLoop exec' loop' start cond step body) := by
  have rest (completion : Completion) :
      Approximates (Config.afterStart loop cond step body completion)
        (Config.afterStart loop' cond step body completion) := by
    cases completion with
    | returned value => exact .refl _
    | completed =>
      cases cond with
      | some cond => exact hloop cond body step
      | none => exact .refl _
  cases start with
  | some stmt => exact (hexec stmt).bind rest
  | none => exact rest .completed

include heval hexec hloop in
/-- Each form of statement keeps its answer when what it executes does. -/
theorem approximates_execution (id : StmtId) :
    Approximates (config.execution eval exec loop id) (config.execution eval' exec' loop' id) := by
  refine Approximates.bind (.refl _) fun stmt => Approximates.bind (.refl _) fun _ => ?_
  cases stmt with
  | decl vars => exact (approximates_declareAll heval vars).bind fun _ => .refl _
  | expr expr => exact (heval expr).discard.bind fun _ => .refl _
  | branch cond yes no => exact approximates_branch heval hexec cond yes no
  | «while» cond body => exact hloop cond body none
  | «for» start cond step body => exact approximates_forLoop hexec hloop start cond step body
  | «return» value => exact approximates_returnWith heval value
  | compound stmts => exact approximates_compound hexec stmts
  | «break» | «continue» => exact .refl _

/-- The frame is popped whether the body yields a value or goes wrong, so if the activation returns,
then its body did. -/
theorem approximates_activation (params : List VarId) (values : List Value) {body : StmtId}
    (hbody : Approximates (exec body) (exec' body)) :
    Approximates (config.activation exec params values body)
      (config.activation exec' params values body) := by
  have bodies : Approximates (config.boundBody exec params values body)
      (config.boundBody exec' params values body) :=
    Approximates.bind (.refl _) fun _ => hbody.discard
  intro s result s' run
  obtain ⟨u, ended, left⟩ | ⟨fault, u, failed, left⟩ := returns_activation_iff.mp run
  · exact returns_activation_iff.mpr (.inl ⟨u, bodies _ _ _ ended, left⟩)
  · exact returns_activation_iff.mpr (.inr ⟨fault, u, bodies _ _ _ failed, left⟩)

include hexec in
/-- A call keeps its answer when the execution of its body does. -/
theorem approximates_functionCall (callee : FuncId) (values : List Value) (type : TypeId) :
    Approximates (config.functionCall exec callee values type)
      (config.functionCall exec' callee values type) := by
  refine Approximates.bind (.refl _) fun decl => ?_
  cases decl.body with
  | none => exact .refl _
  | some body =>
    refine Approximates.bind (.refl _) fun _ => Approximates.bind (.refl _) fun _ => ?_
    exact (approximates_activation decl.params values (hexec body)).bind fun _ => .refl _

end Statements

/-! ### Whole trees -/

/-- One more level keeps every answer. -/
theorem approximates_trees (config : Config) (levels : Nat) :
    (∀ id, Approximates (CellC.eval config levels id) (CellC.eval config (levels + 1) id)) ∧
    (∀ id, Approximates (CellC.exec config levels id) (CellC.exec config (levels + 1) id)) ∧
    (∀ cond body step, Approximates (CellC.loop config levels cond body step)
      (CellC.loop config (levels + 1) cond body step)) := by
  induction levels with
  | zero =>
    refine ⟨fun id => ?_, fun id => ?_, fun cond body step => ?_⟩ <;>
      exact .throw_exhausted _
  | succ levels ih =>
    obtain ⟨heval, hexec, hloop⟩ := ih
    refine ⟨fun id => ?_, fun id => ?_, fun cond body step => ?_⟩
    · exact approximates_evaluation heval (approximates_functionCall hexec) id
    · exact approximates_execution heval hexec hloop id
    · exact approximates_iteration heval hexec hloop cond body step

end Config

/-- An evaluation that ends within a number of levels ends alike within any larger one. -/
theorem eval_mono {config : Config} {levels more : Nat} (le : levels ≤ more) (id : ExprId) :
    Approximates (eval config levels id) (eval config more id) := by
  induction le with
  | refl => exact .refl _
  | step _ ih =>
    intro s result s' run
    exact (config.approximates_trees _).1 id _ _ _ (ih _ _ _ run)

/-- An execution that ends within a number of levels ends alike within any larger one. -/
theorem exec_mono {config : Config} {levels more : Nat} (le : levels ≤ more) (id : StmtId) :
    Approximates (exec config levels id) (exec config more id) := by
  induction le with
  | refl => exact .refl _
  | step _ ih =>
    intro s result s' run
    exact (config.approximates_trees _).2.1 id _ _ _ (ih _ _ _ run)

/-- Turns of a loop that end within a number of levels end alike within any larger one. -/
theorem loop_mono {config : Config} {levels more : Nat} (le : levels ≤ more) (cond : ExprId)
    (body : StmtId) (step : Option ExprId) :
    Approximates (loop config levels cond body step) (loop config more cond body step) := by
  induction le with
  | refl => exact .refl _
  | step _ ih =>
    intro s result s' run
    exact (config.approximates_trees _).2.2 cond body step _ _ _ (ih _ _ _ run)

namespace Config

/-- From `s` the expression evaluates to `result` and leaves `s'` behind, at some number of levels
and hence at any greater one. -/
def Evaluates (config : Config) (id : ExprId) (s : State) (result : Except Fault Value)
    (s' : State) : Prop :=
  ∃ levels, (CellC.eval config levels id).Returns s result s'

/-- An evaluation has one result and one final state, whatever the number of levels. -/
theorem Evaluates.unique {config : Config} {id : ExprId} {s t t' : State}
    {result result' : Except Fault Value} (h : config.Evaluates id s result t)
    (h' : config.Evaluates id s result' t') : result = result' ∧ t = t' := by
  obtain ⟨levels, run⟩ := h
  obtain ⟨levels', run'⟩ := h'
  have both := eval_mono (Nat.le_max_left levels levels') id _ _ _ run
  have both' := eval_mono (Nat.le_max_right levels levels') id _ _ _ run'
  exact both.unique both'

end Config

end CellC
