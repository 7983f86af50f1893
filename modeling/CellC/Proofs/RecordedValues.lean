import CellC.Proofs.CallOrder
import CellC.Proofs.Parts
import Mathlib.Data.Set.Basic

/-!
# Recorded values

An evaluation leaves values recorded in the frame of the innermost activation: that of the
expression itself and those of everything under it. Of an assignment the target is not evaluated,
but under its parentheses the assigned value is recorded, and so are the values of the parts that
say where the target lies. Which expressions these are depends on the expression alone, and calls
record nothing in the frame from which they are made, even if they evaluate the same expressions.

## Main definitions

* `Program.Covers`, `Program.covered`: the expressions whose values an evaluation records
* `Frame.recordedExprs`: the expressions whose values are recorded in a frame
* `Frame.Fills`: values were recorded for certain expressions and no others
* `Action.Records`: an action records values for certain expressions and no others

## Main results

* `Config.records_eval`: an evaluation records values for what it covers
* `evaluation_records_exactly`: the same for the frame afterwards
-/

namespace CellC

variable {α β : Type}

/-! ### What an expression covers -/

/-- The parts that say where the object lies that an expression of some form stands for. -/
def ExprForm.placeParts : ExprForm → List ExprId
  | .index base position => [base, position]
  | unary .deref operand => [operand]
  | ident _ | intLit _ | charLit _ | strLit _ | paren _ | sizeOf _ | unary _ _ | binary _ _ _
  | call _ _ | cast _ _ _ => []

namespace Program

/-- The expressions that are evaluated for an expression of some form, in order. The target of an
assignment is not one of them, but the parts that say where it lies are. -/
def operands (program : Program) : ExprForm → List ExprId
  | .binary .assign target value =>
    value :: ((program.expr? (program.unparen target)).elim [] (·.form.placeParts))
  | form => form.parts

/-- The target of an assignment under its parentheses. -/
def target (program : Program) : ExprForm → Set ExprId
  | .binary .assign target _ => {program.unparen target}
  | _ => ∅

variable {program : Program} {form : ExprForm}

/-- Apart from assignments, the operands of an expression are its parts. -/
theorem operands_of_ne_assign (plain : ∀ target value, form ≠ .binary .assign target value) :
    program.operands form = form.parts := by
  unfold operands
  split
  · next target value => exact absurd rfl (plain target value)
  · rfl

/-- Only an assignment has a target. -/
theorem target_of_ne_assign (plain : ∀ target value, form ≠ .binary .assign target value) :
    program.target form = ∅ := by
  unfold target
  split
  · next target value => exact absurd rfl (plain target value)
  · rfl

/-- The first expression is evaluated together with the second, or has a value assigned then. -/
inductive Covers (program : Program) : ExprId → ExprId → Prop
  | self (id : ExprId) : Covers program id id
  | target {id target : ExprId} {expr : Expr} : program.expr? id = some expr →
    target ∈ program.target expr.form → Covers program id target
  | operand {id operand other : ExprId} {expr : Expr} : program.expr? id = some expr →
    operand ∈ program.operands expr.form → Covers program operand other → Covers program id other

variable (program)

/-- The expressions whose values an evaluation records. -/
def covered (id : ExprId) : Set ExprId := {other | program.Covers id other}

/-- The expressions whose values the evaluation of several expressions records. -/
def coveredBy (ids : List ExprId) : Set ExprId := {other | ∃ id ∈ ids, program.Covers id other}

@[simp] theorem coveredBy_nil : program.coveredBy [] = ∅ := by
  ext other
  simp [coveredBy]

/-- What several expressions cover is what the first covers with what the others do. -/
@[simp] theorem coveredBy_cons (id : ExprId) (ids : List ExprId) :
    program.coveredBy (id :: ids) = program.covered id ∪ program.coveredBy ids := by
  ext other
  simp [coveredBy, covered]

@[simp] theorem coveredBy_singleton (id : ExprId) :
    program.coveredBy [id] = program.covered id := by
  rw [coveredBy_cons, coveredBy_nil, Set.union_empty]

variable {program} in
/-- An expression covers itself, what is assigned by it, and what its operands cover. -/
theorem covered_eq {id : ExprId} {expr : Expr}
    (found : program.expr? id = some expr) :
    program.covered id =
      program.coveredBy (program.operands expr.form) ∪ program.target expr.form ∪ {id} := by
  ext other
  constructor
  · rintro (_ | ⟨found', member⟩ | ⟨found', member, covers⟩)
    · exact .inr rfl
    · cases found.symm.trans found'
      exact .inl (.inr member)
    · cases found.symm.trans found'
      exact .inl (.inl ⟨_, member, covers⟩)
  · rintro ((⟨operand, member, covers⟩ | member) | rfl)
    · exact .operand found member covers
    · exact .target found member
    · exact .self other

end Program

/-! ### What is recorded in a frame -/

namespace Frame

/-- The expressions whose values are recorded. -/
def recordedExprs (frame : Frame) : Set ExprId := {expr | (frame.recorded expr).isSome}

/-- Values were recorded for the given expressions and no others. -/
structure Fills (exprs : Set ExprId) (before after : Frame) : Prop where
  there : exprs ⊆ after.recordedExprs
  kept : ∀ expr, expr ∉ exprs → after.recorded expr = before.recorded expr

namespace Fills

variable {exprs more : Set ExprId} {first second third : Frame}

theorem of_results (same : second.results = first.results) : Fills ∅ first second where
  there := Set.empty_subset _
  kept expr _ := by rw [recorded, recorded, same]

/-- A record fills the place of its own expression. -/
theorem record (frame : Frame) (expr : ExprId) (value : Value) :
    Fills {expr} frame (frame.record expr value) where
  there := by
    rintro _ rfl
    simp [recordedExprs, recorded_record]
  kept other outside := by
    rw [recorded_record, if_neg]
    rintro rfl
    exact outside rfl

/-- What was recorded first is still there, possibly with another value. -/
theorem trans (h : Fills exprs first second) (h' : Fills more second third) :
    Fills (exprs ∪ more) first third where
  there expr member := by
    by_cases again : expr ∈ more
    · exact h'.there again
    · have before := h.there (member.resolve_right again)
      unfold recordedExprs at before ⊢
      rwa [Set.mem_ofPred_eq, ← h'.kept expr again] at before
  kept expr outside := by
    rw [Set.mem_union, not_or] at outside
    exact (h'.kept expr outside.2).trans (h.kept expr outside.1)

/-- After values were recorded for some expressions, those are recorded besides the old ones. -/
theorem recordedExprs_eq (h : Fills exprs first second) :
    second.recordedExprs = first.recordedExprs ∪ exprs := by
  ext expr
  by_cases member : expr ∈ exprs
  · exact iff_of_true (h.there member) (.inr member)
  · simp [recordedExprs, h.kept expr member, member]

end Fills

end Frame

/-! ### Actions that record values -/

/-- If the action yields a value, then it has recorded values for the given expressions and no
others in the frame of the innermost activation. -/
def Action.Records (action : Action α) (exprs : Set ExprId) : Prop :=
  ∀ ⦃s a t⦄, action.Returns s (.ok a) t → Frame.Fills exprs s.stack.top t.stack.top

namespace Action.Records

variable {action : Action α} {next : α → Action β} {exprs more : Set ExprId}

/-- An action that leaves the records alone records nothing. -/
theorem of_results
    (same : ∀ ⦃s a t⦄, action.Returns s (.ok a) t → t.stack.top.results = s.stack.top.results) :
    action.Records ∅ :=
  fun _ _ _ returned => .of_results (same returned)

/-- What never yields a value records whatever one likes. -/
theorem throw (halt : Halt) : (throw halt : Action α).Records exprs := by
  intro s a t returned
  cases returned

theorem pure (a : α) : (pure a : Action α).Records ∅ :=
  .of_results fun _ _ _ returned => by
    cases returned
    rfl

/-- A sequence records what its parts record. -/
protected theorem bind (first : action.Records exprs) (rest : ∀ a, (next a).Records more) :
    (action >>= next).Records (exprs ∪ more) := by
  intro s b t returned
  obtain ⟨a, u, acted, rested⟩ := returned.of_bind
  exact (first acted).trans (rest a rested)

/-- What comes first and records nothing makes no difference. -/
theorem after (first : action.Records ∅) (rest : ∀ a, (next a).Records exprs) :
    (action >>= next).Records exprs := by
  have both := first.bind rest
  rwa [Set.empty_union] at both

/-- What comes last and records nothing makes no difference. -/
theorem before (first : action.Records exprs) (rest : ∀ a, (next a).Records ∅) :
    (action >>= next).Records exprs := by
  have both := first.bind rest
  rwa [Set.union_empty] at both

/-- An update of the innermost frame that leaves the records alone records nothing. -/
theorem modifyTop {f : Frame → Frame} (same : ∀ frame, (f frame).results = frame.results) :
    (modifyTop f).Records ∅ :=
  .of_results fun s _ _ returned => by
    cases returned
    exact (congrArg Frame.results (CallStack.top_modifyTop f s.stack)).trans (same _)

/-- An update of the bottom frame that leaves the records alone records nothing. -/
theorem modifyRoot {f : Frame → Frame} (same : ∀ frame, (f frame).results = frame.results) :
    (modifyRoot f).Records ∅ :=
  .of_results fun s _ _ returned => by
    cases returned
    obtain ⟨⟨root, _ | ⟨frame, calls⟩⟩⟩ := s
    · exact same root
    · rfl

theorem record (expr : ExprId) (value : Value) : (record expr value).Records {expr} := by
  intro s a t returned
  cases returned
  show Frame.Fills _ _ (s.stack.modifyTop _).top
  rw [CallStack.top_modifyTop]
  exact .record _ _ _

end Action.Records

namespace Config

open CellC.Action (Records)

variable {config : Config}

/-! ### Operations -/

/-- What leaves the state alone records nothing. -/
theorem records_of_settles {action : Action α}
    (settles : ∀ s, Action.Settles (· = s) (fun _ t => t = s) (action.run s)) :
    action.Records ∅ :=
  .of_results fun s _ _ returned => by
    have same := Outcome.of_settles (R := fun s t => t = s) (E := fun _ s t => t = s) (settles s)
      returned
    rw [same.elim]

theorem records_varValue (var : VarId) : (config.varValue var).Records ∅ :=
  records_of_settles fun s => Steps.settles_varValue (fun _ _ _ same => same) var s rfl

theorem records_loadAt (address : Address) (type : TypeId) :
    (config.loadAt address type).Records ∅ :=
  records_of_settles fun s => Steps.settles_loadAt (fun _ _ _ same => same) address type s rfl

theorem records_storeAt (address : Address) (type : TypeId) (value : Value) :
    (config.storeAt address type value).Records ∅ :=
  .of_results fun s _ _ returned => by
    unfold Action.Returns storeAt at returned
    rw [Action.run_store] at returned
    split at returned
    · cases returned
      rfl
    · cases returned

theorem records_assignVar (var : VarId) (value : Value) :
    (config.assignVar var value).Records ∅ := by
  have atRoot := Records.modifyRoot (f := (·.bind var value)) fun _ => rfl
  have atTop := Records.modifyTop (f := (·.bind var value)) fun _ => rfl
  intro s a t returned
  unfold assignVar Action.Returns at returned
  rw [Action.run_get_bind] at returned
  split at returned
  · exact atRoot returned
  · exact atTop returned

theorem records_ofExcept (outcome : Except Fault Cell) :
    (Action.ofExcept outcome).Records ∅ := by
  cases outcome with
  | ok cell => exact .pure cell
  | error fault => exact .throw _

/-- Memory, output and input are no matter of frames. -/
theorem records_of_serves {levels : Nat} {request : Request} (serves : request.ServesPrimitives) :
    (config.carryOut levels request).Records ∅ := by
  refine .of_results fun s a t returned => ?_
  unfold Request.ServesPrimitives at serves
  split at serves
  · cases returned
  · cases returned
    rfl
  · next size =>
    unfold Action.Returns carryOut perform at returned
    dsimp only at returned
    rw [Action.run_allocate] at returned
    split at returned
    · cases returned
      rfl
    · cases returned
  · unfold Action.Returns carryOut perform at returned
    dsimp only at returned
    rw [Action.run_release] at returned
    cases returned
    rfl
  · cases returned
    rfl
  · obtain ⟨reading, u, read, rest⟩ := Action.Returns.of_bind returned
    cases read
    split at rest
    · cases rest
      rfl
    · cases rest
      rfl
    · cases rest
      rfl
  · cases serves

/-- A script that asks for what primitives need records nothing. -/
theorem records_script {levels : Nat} {script : Script α}
    (serves : script.Asks Request.ServesPrimitives) :
    (script.run (config.carryOut levels)).Records ∅ :=
  serves.holds (Q := fun action => action.Records ∅) .pure .after fun _ => records_of_serves

/-- A call of a primitive records nothing. -/
theorem records_primitiveCall (primitive : Primitive) (values : List Value) (type : TypeId) :
    (config.primitiveCall primitive values type).Records ∅ := by
  rw [← config.run_primitiveScript, ← config.carryOut_eq_answer 0]
  exact records_script (config.asks_primitiveScript primitive values type)

/-- A call records nothing in the frame from which it is made. -/
theorem records_functionCall (levels : Nat) (callee : FuncId) (values : List Value)
    (type : TypeId) :
    (config.functionCall (CellC.exec config levels) callee values type).Records ∅ := by
  refine .of_results fun s a t returned => ?_
  -- The frame of the call is gone, and at file scope a call binds variables at most.
  obtain ⟨left, -⟩ := returned_of_functionCall returned
  unfold CallStack.top
  rw [left.calls]
  cases s.stack.calls with
  | nil => exact left.fileScope.results
  | cons frame calls => rfl

/-! ### Rules -/

section Rules

variable {eval : ExprId → Action Value} {invoke : FuncId → List Value → TypeId → Action Value}
  (heval : ∀ id, (eval id).Records (config.program.covered id))
include heval

/-- The address of an element records what base and index cover. -/
theorem records_subscript (base index : ExprId) :
    (config.subscript eval base index).Records (config.program.coveredBy [base, index]) := by
  rw [Program.coveredBy_cons, Program.coveredBy_singleton]
  exact (heval base).bind fun _ => (heval index).before fun _ => .pure _

theorem records_unary (op : UnaryOp) (operand : ExprId) (type : TypeId) :
    (config.unary eval op operand type).Records (config.program.covered operand) := by
  cases op with
  | addrOf => exact .throw _
  | deref => exact (heval operand).before fun _ => records_loadAt _ _
  | neg | plus | bitNot | not =>
    exact (heval operand).before fun _ => (records_ofExcept _).after fun _ => .pure _

/-- The object that is assigned to is found by evaluating the parts that say where it lies. -/
theorem records_assign (target value : ExprId) :
    (config.assign eval target value).Records
      (config.program.coveredBy (config.program.operands (.binary .assign target value)) ∪
        {config.program.unparen target}) := by
  rw [Program.operands, Program.coveredBy_cons, Set.union_assoc]
  refine (heval value).bind fun v => ?_
  dsimp only
  cases config.program.expr? (config.program.unparen target) with
  | none => exact .throw _
  | some node =>
    rw [Action.ofOption, pure_bind]
    have recorded (stored : Value) : (do
        Action.record (config.program.unparen target) stored
        pure stored : Action Value).Records {config.program.unparen target} :=
      (Records.record _ _).before fun _ => .pure _
    obtain ⟨form, type⟩ := node
    cases form with
    | ident var =>
      rw [Option.elim, ExprForm.placeParts, Program.coveredBy_nil]
      exact (records_assignVar var _).bind fun _ => recorded _
    | index base index =>
      exact (records_subscript heval base index).bind fun _ =>
        (records_storeAt _ _ _).after fun _ => recorded _
    | unary op operand =>
      cases op with
      | deref =>
        rw [Option.elim, ExprForm.placeParts, Program.coveredBy_singleton]
        exact (heval operand).bind fun _ => (records_storeAt _ _ _).after fun _ => recorded _
      | neg | plus | bitNot | not | addrOf => exact .throw _
    | intLit | charLit | strLit | paren | sizeOf | binary | call | cast => exact .throw _

omit heval in
/-- All parts of an expression are evaluated, unless it is an assignment. -/
theorem records_of_parts {action : Action α} {form : ExprForm}
    (plain : ∀ target value, form ≠ .binary .assign target value)
    (parts : action.Records (config.program.coveredBy form.parts)) :
    action.Records (config.program.coveredBy (config.program.operands form) ∪
      config.program.target form) := by
  rwa [Program.operands_of_ne_assign plain, Program.target_of_ne_assign plain, Set.union_empty]

/-- A binary operation records what its operands cover, and the target of an assignment. -/
theorem records_binary (op : BinaryOp) (left right : ExprId) (type : TypeId) :
    (config.binary eval op left right type).Records
      (config.program.coveredBy (config.program.operands (.binary op left right)) ∪
        config.program.target (.binary op left right)) := by
  unfold binary
  split
  · exact .throw _
  split
  · next assigns =>
    obtain rfl : op = .assign := by cases op <;> first | rfl | cases assigns
    exact records_assign heval left right
  · next computes =>
    have plain (target value : ExprId) : .binary op left right ≠ ExprForm.binary .assign target
        value := by
      rintro ⟨⟩
      exact computes rfl
    refine records_of_parts plain ?_
    rw [ExprForm.parts, if_neg computes, Program.coveredBy_cons, Program.coveredBy_singleton]
    refine (heval left).bind fun _ => (heval right).before fun _ => ?_
    exact (records_ofExcept _).after fun _ => .pure _

/-- An argument list records what its expressions cover. -/
theorem records_args (exprs : List ExprId) :
    (Config.args eval exprs).Records (config.program.coveredBy exprs) := by
  induction exprs with
  | nil =>
    rw [Program.coveredBy_nil]
    exact .pure _
  | cons expr exprs ih =>
    rw [Program.coveredBy_cons]
    exact (heval expr).bind fun _ => ih.before fun _ => .pure _

variable (hinvoke : ∀ callee values type, (invoke callee values type).Records ∅)
include hinvoke

/-- A call records what its arguments cover: its body records in a frame of its own. -/
theorem records_call (id : ExprId) (callee : FuncId) (args : List ExprId) (type : TypeId) :
    (config.call eval invoke id callee args type).Records (config.program.coveredBy args) := by
  have note (event : Event) : (Action.emit event).Records ∅ :=
    .of_results fun _ _ _ returned => by
      cases returned
      rfl
  refine (note _).after fun _ => (records_args heval args).before fun values => ?_
  refine (note _).after fun _ => ?_
  cases config.setup.primitive? callee with
  | some primitive => exact records_primitiveCall primitive values type
  | none => exact hinvoke callee values type

/-- Whatever its form, an expression records what its operands cover, and its target. -/
theorem records_expression (id : ExprId) (expr : Expr) :
    (config.expression eval invoke id expr).Records
      (config.program.coveredBy (config.program.operands expr.form) ∪
        config.program.target expr.form) := by
  obtain ⟨form, type⟩ := expr
  cases form with
  | binary op left right => exact records_binary heval op left right type
  | strLit => exact .throw _
  | ident var =>
    refine records_of_parts (by rintro _ _ ⟨⟩) ?_
    exact config.program.coveredBy_nil ▸ records_varValue var
  | intLit | charLit | sizeOf =>
    refine records_of_parts (by rintro _ _ ⟨⟩) ?_
    exact config.program.coveredBy_nil ▸ Records.pure _
  | paren operand | cast _ _ operand =>
    refine records_of_parts (by rintro _ _ ⟨⟩) ?_
    rw [ExprForm.parts, Program.coveredBy_singleton]
    exact heval operand
  | unary op operand =>
    refine records_of_parts (by rintro _ _ ⟨⟩) ?_
    rw [ExprForm.parts, Program.coveredBy_singleton]
    exact records_unary heval op operand type
  | index base index =>
    refine records_of_parts (by rintro _ _ ⟨⟩) ?_
    exact (records_subscript heval base index).before fun _ => records_loadAt _ _
  | call callee args =>
    refine records_of_parts (by rintro _ _ ⟨⟩) ?_
    exact records_call heval hinvoke id callee args type

end Rules

/-- An evaluation records values for what it covers. -/
theorem records_eval (levels : Nat) (id : ExprId) :
    (CellC.eval config levels id).Records (config.program.covered id) := by
  induction levels generalizing id with
  | zero => exact .throw _
  | succ levels ih =>
    rw [eval_succ, evaluation]
    cases found : config.program.expr? id with
    | none => exact .throw _
    | some expr =>
      rw [Program.covered_eq found, Action.ofOption, pure_bind]
      refine (records_expression ih (records_functionCall levels) id expr).bind fun v => ?_
      exact (Records.record id v).before fun _ => .pure v

end Config

/-- If an evaluation yields a value, then it is recorded for the expression in the frame of the
innermost activation. There, values are recorded of the same expressions as before and of those that
the expression covers, and of no others: those that it does not cover have the values that they had.
Whatever functions were called, they recorded nothing there. -/
theorem evaluation_records_exactly {config : Config} {levels : Nat} {id : ExprId} {v : Value}
    {s s' : State} (evaluated : (eval config levels id).Returns s (.ok v) s') :
    s'.stack.depth = s.stack.depth ∧ s'.stack.top.recorded id = some v ∧
      s'.stack.top.recordedExprs = s.stack.top.recordedExprs ∪ config.program.covered id ∧
      ∀ other, other ∉ config.program.covered id →
        s'.stack.top.recorded other = s.stack.top.recorded other := by
  have fills := Config.records_eval levels id evaluated
  have undisturbed : s.stack.Undisturbed config.setup s'.stack :=
    Config.undisturbed_carryOut (.evaluate id) evaluated
  refine ⟨undisturbed.depth, ?_, fills.recordedExprs_eq, fills.kept⟩
  obtain ⟨_, _, t, -, -, -, rfl⟩ := Config.rule_of_returns_eval evaluated
  show (t.stack.modifyTop _).top.recorded id = some v
  rw [CallStack.top_modifyTop, Frame.recorded_record, if_pos rfl]

/-- A function that assigns its parameter, in parentheses, the value of a call of itself with one
less. -/
def assignRecursively : Config where
  program := {
    names := ⟨⟨#["", "f", "p"]⟩⟩
    vars := #[⟨⟨2⟩, .int, none⟩]
    exprs := #[⟨.ident ⟨0⟩, .int⟩, ⟨.paren ⟨0⟩, .int⟩, ⟨.ident ⟨0⟩, .int⟩, ⟨.intLit 1, .int⟩,
      ⟨.binary .sub ⟨2⟩ ⟨3⟩, .int⟩, ⟨.call ⟨0⟩ [⟨4⟩], .int⟩, ⟨.binary .assign ⟨1⟩ ⟨5⟩, .int⟩,
      ⟨.ident ⟨0⟩, .int⟩, ⟨.ident ⟨0⟩, .int⟩]
    stmts := #[.expr ⟨6⟩, .branch ⟨7⟩ ⟨0⟩ none, .return (some ⟨8⟩), .compound [⟨1⟩, ⟨2⟩]]
    funcs := #[⟨⟨1⟩, [⟨0⟩], .int, some ⟨3⟩⟩]
    topLevel := #[.function ⟨0⟩] }
  setup := { entry := ⟨0⟩ }

/-- The calls evaluate the assignment, too, and the condition and the value to return besides. None
of it shows in the frame from which the first of them is made, and neither do the parentheses. -/
theorem evaluation_records_exactly_assignRecursively :
    ∃ s', (eval assignRecursively 30 ⟨6⟩).Returns
        { stack := { calls := [({} : Frame).bind ⟨0⟩ (.int 2)] } } (.ok (.int 0)) s' ∧
      s'.stack.top.recorded ⟨6⟩ = some (.int 0) ∧
      s'.stack.top.recordedExprs =
        (({} : Frame).bind ⟨0⟩ (.int 2)).recordedExprs ∪
          assignRecursively.program.covered ⟨6⟩ ∧
      s'.stack.top.recorded ⟨0⟩ = some (.int 0) ∧
      ∀ id ∈ [⟨1⟩, ⟨7⟩, ⟨8⟩], s'.stack.top.recorded id = none := by
  have returns : ∃ s', (eval assignRecursively 30 ⟨6⟩).Returns
      { stack := { calls := [({} : Frame).bind ⟨0⟩ (.int 2)] } } (.ok (.int 0)) s' ∧
      s'.stack.top.recorded ⟨0⟩ = some (.int 0) ∧
      ∀ id ∈ [⟨1⟩, ⟨7⟩, ⟨8⟩], s'.stack.top.recorded id = none := by
    refine ⟨_, rfl, rfl, ?_⟩
    decide
  obtain ⟨s', evaluated, target, outside⟩ := returns
  obtain ⟨-, value, exprs, -⟩ := evaluation_records_exactly evaluated
  exact ⟨s', evaluated, value, exprs, target, outside⟩

end CellC
