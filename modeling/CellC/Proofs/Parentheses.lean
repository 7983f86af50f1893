import CellC.Proofs.Agreement
import CellC.Proofs.Building.Unwrapping

/-!
# Parentheses

Wherever a program refers to an expression in parentheses, it may as well refer to what is under
them. The rules of the program without parentheses are those of the program itself, except that they
ask for the values of other expressions. The one program needs more levels than the other one, and
its frames have records for the parentheses; nothing else tells the two apart.

## Main definitions

* `Config.unwrapped`: the program without parentheses in place of the program
* `Program.Echoes`: an action does what another one does, up to records for parentheses
* `Program.Transparent`: two ways of ending, up to records for parentheses

## Main results

* `Config.evaluation_unwrapped`, `Config.execution_unwrapped`: the rules are the same
* `Config.echoes_unwrapped`, `Config.unwrapped_echoes`: the two programs echo each other
* `parentheses_transparent`: both programs do the same
-/

namespace CellC

open CellC.Action (Follows)

variable {α β γ : Type}

/-- What is looked up can be changed before it is used or while it is. -/
theorem Action.ofOption_map_bind (f : α → β) (option : Option α) (next : β → Action γ) :
    (ofOption (option.map f) >>= next) = ofOption option >>= fun a => next (f a) := by
  cases option <;> rfl

/-- The program without parentheses, set up in the same way. -/
def Config.unwrapped (config : Config) : Config :=
  { config with program := config.program.unwrapped }

namespace Config

variable {config : Config}

/-! ### Rules -/

section Rules

variable (eval : ExprId → Action Value) (exec : StmtId → Action Completion)
  (loop : ExprId → StmtId → Option ExprId → Action Completion)
  (invoke : FuncId → List Value → TypeId → Action Value)

theorem varValue_unwrapped (var : VarId) :
    config.unwrapped.varValue var = config.varValue var := by
  unfold varValue
  rw [show config.unwrapped.program.varName var = config.program.varName var from
    config.program.varName_unwrapped var]
  rfl

theorem args_map (f : ExprId → ExprId) (exprs : List ExprId) :
    Config.args eval (exprs.map f) = Config.args (fun id => eval (f id)) exprs := by
  induction exprs with
  | nil => rfl
  | cons expr exprs ih =>
    rw [List.map_cons, args, args, ih]

section Expressions

variable (fit : config.program.TypesFit)
include fit

theorem subscript_unwrapped (base index : ExprId) :
    config.unwrapped.subscript eval (config.program.unparen base) (config.program.unparen index) =
      config.subscript (fun id => eval (config.program.unparen id)) base index := by
  have type : config.unwrapped.program.exprType (config.program.unparen base) =
      config.program.exprType base := Program.exprType_unwrapped fit base
  unfold subscript
  rw [type]
  rfl

variable (descend : config.program.ParensDescend)
include descend

theorem assign_unwrapped (target value : ExprId) :
    config.unwrapped.assign eval (config.program.unparen target) (config.program.unparen value) =
      config.assign (fun id => eval (config.program.unparen id)) target value := by
  have under : config.unwrapped.program.unparen (config.program.unparen target) =
      config.program.unparen target := Program.unparen_unwrapped descend target
  have node : config.unwrapped.program.expr? (config.program.unparen target) = _ :=
    config.program.expr?_unwrapped _
  refine bind_congr fun v => ?_
  rw [under]
  dsimp only
  rw [node, Action.ofOption_map_bind]
  refine bind_congr fun node => ?_
  obtain ⟨form, type⟩ := node
  cases form with
  | index base index => exact congrArg (· >>= _) (subscript_unwrapped eval fit base index)
  | unary op operand => cases op <;> rfl
  | ident | intLit | charLit | strLit | paren | sizeOf | binary | call | cast => rfl

theorem expression_unwrapped (id : ExprId) (form : ExprForm) (type : TypeId) :
    config.unwrapped.expression eval invoke id ⟨form.mapExprs config.program.unparen, type⟩ =
      config.expression (fun id => eval (config.program.unparen id)) invoke id ⟨form, type⟩ := by
  cases form with
  | ident var => exact varValue_unwrapped var
  | intLit | charLit | strLit | paren | sizeOf | cast => rfl
  | unary op operand => cases op <;> rfl
  | binary op left right =>
    have types (operand : ExprId) :
        config.unwrapped.program.exprType (config.program.unparen operand) =
          config.program.exprType operand := Program.exprType_unwrapped fit operand
    show config.unwrapped.binary eval op _ _ type = config.binary _ op left right type
    unfold binary
    rw [types, types, assign_unwrapped eval fit descend]
    rfl
  | index base index => exact congrArg (· >>= _) (subscript_unwrapped eval fit base index)
  | call callee args =>
    show config.unwrapped.call eval invoke id callee (args.map _) type =
      config.call _ invoke id callee args type
    unfold call
    rw [args_map]
    rfl

theorem evaluation_unwrapped (id : ExprId) :
    config.unwrapped.evaluation eval invoke id =
      config.evaluation (fun id => eval (config.program.unparen id)) invoke id := by
  have node : config.unwrapped.program.expr? id = _ := config.program.expr?_unwrapped id
  unfold evaluation
  rw [node, Action.ofOption_map_bind]
  refine bind_congr fun expr => ?_
  exact congrArg (· >>= _) (expression_unwrapped eval invoke fit descend id expr.form expr.type)

end Expressions

theorem declareAll_unwrapped (vars : List VarId) :
    config.unwrapped.declareAll eval vars =
      config.declareAll (fun id => eval (config.program.unparen id)) vars := by
  have declares (var : VarId) : config.unwrapped.declare eval var =
      config.declare (fun id => eval (config.program.unparen id)) var := by
    have decl : config.unwrapped.program.var? var = _ := config.program.var?_unwrapped var
    unfold declare
    rw [decl, Action.ofOption_map_bind]
    refine bind_congr fun decl => ?_
    obtain ⟨name, type, init⟩ := decl
    cases init <;> rfl
  induction vars with
  | nil => rfl
  | cons var vars ih => rw [declareAll, declareAll, declares, ih]

theorem iteration_map (f : ExprId → ExprId) (cond : ExprId) (body : StmtId)
    (step : Option ExprId) :
    Config.iteration eval exec loop (f cond) body (step.map f) =
      Config.iteration (fun id => eval (f id)) exec
        (fun cond body step => loop (f cond) body (step.map f)) cond body step := by
  cases step <;> rfl

theorem execution_unwrapped (id : StmtId) :
    config.unwrapped.execution eval exec loop id =
      config.execution (fun id => eval (config.program.unparen id)) exec
        (fun cond body step =>
          loop (config.program.unparen cond) body (step.map config.program.unparen)) id := by
  have node : config.unwrapped.program.stmt? id = _ := config.program.stmt?_unwrapped id
  unfold execution
  rw [node, Action.ofOption_map_bind]
  refine bind_congr fun stmt => bind_congr fun _ => ?_
  cases stmt with
  | decl vars => exact congrArg (· >>= _) (declareAll_unwrapped eval vars)
  | expr | branch | «while» | compound | «break» | «continue» => rfl
  | «for» start cond step body => cases cond <;> rfl
  | «return» value => cases value <;> rfl

theorem functionCall_unwrapped (callee : FuncId) (values : List Value) (type : TypeId) :
    config.unwrapped.functionCall exec callee values type =
      config.functionCall exec callee values type := by
  have bindings (params : List VarId) (values : List Value) :
      config.unwrapped.bindParams params values = config.bindParams params values := by
    induction params generalizing values with
    | nil => cases values <;> rfl
    | cons var params ih =>
      cases values with
      | nil => rfl
      | cons value values =>
        have decl : config.unwrapped.program.var? var = _ := config.program.var?_unwrapped var
        rw [bindParams, bindParams, decl, Action.ofOption_map_bind]
        exact bind_congr fun decl => bind_congr fun _ => ih values
  unfold functionCall activation
  simp only [bindings]
  rfl

theorem running_unwrapped :
    config.unwrapped.running eval invoke =
      config.running (fun id => eval (config.program.unparen id)) invoke := by
  unfold running readyGlobals
  simp only [declareAll_unwrapped]
  rfl

end Rules

end Config

/-! ### Echoes -/

/-- The states agree up to what is recorded for parentheses. -/
abbrev Program.Agree (program : Program) (s t : State) : Prop :=
  s.Agrees (Frame.SameExcept program.parens) (fun _ => true) t

/-- The second action does what the first one does, up to what is recorded for parentheses. -/
abbrev Program.Echoes (program : Program) (action other : Action α) : Prop :=
  Follows (Frame.SameExcept program.parens) (fun _ => true) action other

section Records

variable {program : Program} {expr : ExprId} (paren : expr ∈ program.parens)
include paren

theorem Program.Agree.record_right {s t : State} (agree : program.Agree s t) (value : Value) :
    program.Agree s { t with stack := t.stack.modifyTop (·.record expr value) } := by
  have recorded : program.Agree { s with stack := s.stack.modifyTop id }
      { t with stack := t.stack.modifyTop (·.record expr value) } :=
    agree.modifyTop (agree.stack.top.record paren value)
  rwa [CallStack.modifyTop_id] at recorded

variable {action other : Action Value}

/-- A record for parentheses makes no difference. -/
theorem Program.Echoes.recorded_right (echoes : program.Echoes action other) :
    program.Echoes action (do
      let value ← other
      Action.record expr value
      pure value) := by
  rw [← bind_pure action]
  refine echoes.bind fun value s t start result s' returned => ?_
  cases result <;> cases returned
  exact ⟨_, rfl, Program.Agree.record_right paren start value⟩

theorem Program.Echoes.recorded_left (echoes : program.Echoes action other) :
    program.Echoes (do
      let value ← action
      Action.record expr value
      pure value) other := by
  rw [← bind_pure other]
  refine echoes.bind fun value s t start result s' returned => ?_
  cases result <;> cases returned
  have agree := Program.Agree.record_right paren (start.symm .symm) value
  exact ⟨t, rfl, agree.symm .symm⟩

end Records

namespace Config

variable {config : Config} {levels : Nat} {id : ExprId} {action : Action Value}

theorem eval_paren {inner : ExprId} {type : TypeId}
    (found : config.program.expr? id = some ⟨.paren inner, type⟩) :
    CellC.eval config (levels + 1) id = (do
      let value ← CellC.eval config levels inner
      Action.record id value
      pure value) := by
  rw [eval_succ, evaluation, found]
  rfl

/-- What echoes the expression under parentheses echoes the one with them. -/
theorem echoes_of_unparen
    (echoes : config.program.Echoes (CellC.eval config levels (config.program.unparen id)) action) :
    config.program.Echoes (CellC.eval config levels id) action := by
  unfold Program.unparen at echoes
  generalize config.program.exprs.size = layers at echoes
  induction layers generalizing levels id with
  | zero => exact echoes
  | succ layers ih =>
    unfold Program.unparenWithin at echoes
    split at echoes
    · next inner found =>
      obtain ⟨⟨form, type⟩, there, rfl⟩ := Option.map_eq_some_iff.mp found
      -- The parentheses themselves take a level, which what is under them can do without.
      cases levels with
      | zero => exact .throw_exhausted action
      | succ levels =>
        have below := ih (.of_approximates (eval_mono (Nat.le_succ levels) _) echoes)
        rw [eval_paren there]
        exact Program.Echoes.recorded_left (Program.mem_parens there) below
    · exact echoes

/-- Each pair of parentheses may take a level. -/
theorem unparen_echoes
    (echoes : config.program.Echoes action (CellC.eval config levels (config.program.unparen id))) :
    config.program.Echoes action
      (CellC.eval config (levels + config.program.exprs.size) id) := by
  unfold Program.unparen at echoes
  generalize config.program.exprs.size = layers at echoes ⊢
  induction layers generalizing id with
  | zero => exact echoes
  | succ layers ih =>
    unfold Program.unparenWithin at echoes
    split at echoes
    · next inner found =>
      obtain ⟨⟨form, type⟩, there, rfl⟩ := Option.map_eq_some_iff.mp found
      rw [← Nat.add_assoc, eval_paren there]
      exact Program.Echoes.recorded_right (Program.mem_parens there) (ih echoes)
    · exact echoes.approximates (eval_mono (Nat.le_add_right _ _) id)

/-! ### Trees -/

section Trees

variable (config) in
/-- The frames are related if they differ in what is recorded for parentheses. -/
theorem congruence_parens : Frame.Congruence (Frame.SameExcept config.program.parens) :=
  Frame.congruence_sameExcept _

theorem exec_unwrapped (levels : Nat) (id : StmtId) :
    CellC.exec config.unwrapped (levels + 1) id =
      config.execution (fun id => CellC.eval config.unwrapped levels (config.program.unparen id))
        (CellC.exec config.unwrapped levels)
        (fun cond body step => CellC.loop config.unwrapped levels (config.program.unparen cond) body
          (step.map config.program.unparen)) id := by
  rw [exec_succ, execution_unwrapped]

theorem loop_unwrapped (levels : Nat) (cond : ExprId) (body : StmtId) (step : Option ExprId) :
    CellC.loop config.unwrapped (levels + 1) (config.program.unparen cond) body
        (step.map config.program.unparen) =
      Config.iteration
        (fun id => CellC.eval config.unwrapped levels (config.program.unparen id))
        (CellC.exec config.unwrapped levels)
        (fun cond body step => CellC.loop config.unwrapped levels (config.program.unparen cond) body
          (step.map config.program.unparen)) cond body step := by
  rw [loop_succ, iteration_map]

variable (built : config.program.Built) (levels : Nat)
include built

theorem eval_unwrapped (id : ExprId) :
    CellC.eval config.unwrapped (levels + 1) id =
      config.evaluation (fun id => CellC.eval config.unwrapped levels (config.program.unparen id))
        (config.functionCall (CellC.exec config.unwrapped levels)) id := by
  rw [eval_succ, evaluation_unwrapped _ _ built.typesFit built.parensDescend]
  congr 1
  funext callee values type
  exact functionCall_unwrapped _ callee values type

/-- The program without parentheses does what the program does. -/
theorem echoes_unwrapped :
    (∀ id, config.program.Echoes (CellC.eval config levels id)
      (CellC.eval config.unwrapped levels id)) ∧
    (∀ id, config.program.Echoes (CellC.exec config levels id)
      (CellC.exec config.unwrapped levels id)) ∧
    (∀ cond body step, config.program.Echoes (CellC.loop config levels cond body step)
      (CellC.loop config.unwrapped levels (config.program.unparen cond) body
        (step.map config.program.unparen))) := by
  induction levels with
  | zero =>
    refine ⟨fun id => ?_, fun id => ?_, fun cond body step => ?_⟩ <;>
      exact .throw_exhausted _
  | succ levels ih =>
    simp only [eval_unwrapped built, exec_unwrapped, loop_unwrapped]
    exact follows_rules config.congruence_parens
      (fun id => echoes_of_unparen (ih.1 (config.program.unparen id))) ih.2.1 ih.2.2

/-- The program does what it does without parentheses, if there are enough levels for those. -/
theorem unwrapped_echoes :
    (∀ id, config.program.Echoes (CellC.eval config.unwrapped levels id)
      (CellC.eval config (levels * (config.program.exprs.size + 1)) id)) ∧
    (∀ id, config.program.Echoes (CellC.exec config.unwrapped levels id)
      (CellC.exec config (levels * (config.program.exprs.size + 1)) id)) ∧
    (∀ cond body step, config.program.Echoes
      (CellC.loop config.unwrapped levels (config.program.unparen cond) body
        (step.map config.program.unparen))
      (CellC.loop config (levels * (config.program.exprs.size + 1)) cond body step)) := by
  induction levels with
  | zero =>
    refine ⟨fun id => ?_, fun id => ?_, fun cond body step => ?_⟩ <;>
      exact .throw_exhausted _
  | succ levels ih =>
    have more := Nat.le_add_right (levels * (config.program.exprs.size + 1))
      config.program.exprs.size
    rw [Nat.succ_mul, ← Nat.add_assoc]
    simp only [eval_unwrapped built, exec_unwrapped, loop_unwrapped]
    exact follows_rules config.congruence_parens
      (fun id => unparen_echoes (ih.1 (config.program.unparen id)))
      (fun id => (ih.2.1 id).approximates (exec_mono more id))
      fun cond body step => (ih.2.2 cond body step).approximates (loop_mono more cond body step)

/-- The two runs echo each other as the trees do. -/
theorem run_echoes :
    config.program.Echoes (config.run levels) (config.unwrapped.run levels) ∧
      config.program.Echoes (config.unwrapped.run levels)
        (config.run (levels * (config.program.exprs.size + 1) + config.program.exprs.size)) := by
  have calls : config.unwrapped.functionCall (CellC.exec config.unwrapped levels) =
      config.functionCall (CellC.exec config.unwrapped levels) := by
    funext callee values type
    exact functionCall_unwrapped _ callee values type
  have forth := echoes_unwrapped built levels
  have back := unwrapped_echoes built levels
  unfold run
  rw [running_unwrapped, calls]
  constructor
  · exact follows_running config.congruence_parens
      (fun id => echoes_of_unparen (forth.1 (config.program.unparen id)))
      (follows_functionCall config.congruence_parens forth.2.1)
  · refine follows_running config.congruence_parens
      (fun id => unparen_echoes (back.1 (config.program.unparen id)))
      (follows_functionCall config.congruence_parens fun id => ?_)
    exact (back.2.1 id).approximates (exec_mono (Nat.le_add_right _ _) id)

end Trees

end Config

/-! ### Both programs do the same -/

/-- From states that agree, both ways end or neither does, with the same result and in states that
agree again. -/
structure Program.Transparent (program : Program)
    (ends ends' : State → Except Fault α → State → Prop) : Prop where
  forth : ∀ {s t result s'}, program.Agree s t → ends s result s' →
    ∃ t', ends' t result t' ∧ program.Agree s' t'
  back : ∀ {s t result t'}, program.Agree s t → ends' t result t' →
    ∃ s', ends s result s' ∧ program.Agree s' t'

theorem Program.transparent_of_echoes {program : Program} {action other : Nat → Action α}
    (forth : ∀ levels, ∃ more, program.Echoes (action levels) (other more))
    (back : ∀ levels, ∃ more, program.Echoes (other levels) (action more)) :
    program.Transparent (fun s result s' => ∃ levels, (action levels).Returns s result s')
      fun s result s' => ∃ levels, (other levels).Returns s result s' where
  forth := by
    rintro s t result s' agree ⟨levels, returned⟩
    obtain ⟨more, echoes⟩ := forth levels
    obtain ⟨t', returned', agree⟩ := echoes agree returned
    exact ⟨t', ⟨more, returned'⟩, agree⟩
  back := by
    rintro s t result t' agree ⟨levels, returned⟩
    obtain ⟨more, echoes⟩ := back levels
    obtain ⟨s', returned', agree⟩ := echoes (agree.symm .symm) returned
    exact ⟨s', ⟨more, returned'⟩, agree.symm .symm⟩

/-- Parentheses are transparent. If every reference to an expression in parentheses is replaced by
one to the expression under them, then a survey finds the same, and a run, an execution of any
statement and an evaluation of any expression end with the same result and in states that differ in
what is recorded for parentheses at most. For an expression in parentheses, the one under them may
be evaluated instead. -/
theorem parentheses_transparent {config : Config} (built : config.program.Built) :
    config.unwrapped.program.setup = config.program.setup ∧
    config.program.Transparent (config.Ends .run) (config.unwrapped.Ends .run) ∧
    (∀ id, config.program.Transparent (config.Ends (.execute id))
      (config.unwrapped.Ends (.execute id))) ∧
    ∀ id, config.program.Transparent (config.Ends (.evaluate id))
        (config.unwrapped.Ends (.evaluate id)) ∧
      config.program.Transparent (config.Ends (.evaluate id))
        (config.unwrapped.Ends (.evaluate (config.program.unparen id))) := by
  have forth := Config.echoes_unwrapped built
  have back := Config.unwrapped_echoes built
  refine ⟨config.program.setup_unwrapped, ?_, fun id => ?_, fun id => ⟨?_, ?_⟩⟩
  · exact Program.transparent_of_echoes (fun levels => ⟨_, (Config.run_echoes built levels).1⟩)
      fun levels => ⟨_, (Config.run_echoes built levels).2⟩
  · exact Program.transparent_of_echoes (fun levels => ⟨_, (forth levels).2.1 id⟩)
      fun levels => ⟨_, (back levels).2.1 id⟩
  · exact Program.transparent_of_echoes (fun levels => ⟨_, (forth levels).1 id⟩)
      fun levels => ⟨_, (back levels).1 id⟩
  · exact Program.transparent_of_echoes
      (fun levels => ⟨_, Config.echoes_of_unparen ((forth levels).1 (config.program.unparen id))⟩)
      fun levels => ⟨_, Config.unparen_echoes ((back levels).1 (config.program.unparen id))⟩

/-- The steps that build a program with the file-scope variable `row` and an entry point that
executes `(((row)[(1)])) = (5);` and `if ((*((row) + (1)))) PRINT((*((row) + (1))));` and returns
`(*((row) + (1)))`. -/
def wrappedSteps : List Construction :=
  [.prototype "PRINT" [.int] .void, .type (.array .int 2), .global "row" ⟨3⟩ none,
    .function "main" .int, .expr (.ident ⟨1⟩), .expr (.paren ⟨0⟩), .expr (.intLit 1),
    .expr (.paren ⟨2⟩), .expr (.index ⟨1⟩ ⟨3⟩), .expr (.paren ⟨4⟩), .expr (.paren ⟨5⟩),
    .expr (.intLit 5), .expr (.paren ⟨7⟩), .expr (.binary .assign ⟨6⟩ ⟨8⟩),
    .expr (.binary .add ⟨1⟩ ⟨3⟩), .expr (.paren ⟨10⟩), .expr (.unary .deref ⟨11⟩),
    .expr (.paren ⟨12⟩), .expr (.call ⟨0⟩ [⟨13⟩]), .expr (.paren ⟨13⟩),
    .stmt (.expr ⟨9⟩), .stmt (.expr ⟨14⟩), .stmt (.branch ⟨15⟩ ⟨1⟩ none),
    .stmt (.return (some ⟨13⟩)), .stmt (.compound [⟨0⟩, ⟨2⟩, ⟨3⟩]), .body ⟨1⟩ ⟨4⟩]

/-- The program with this entry point. -/
def wrapped : Config where
  program := {
    names := ⟨⟨#["", "PRINT", "arg0", "row", "main"]⟩⟩
    types := ⟨⟨#[.int, .char, .void, .array .int 2, .pointer .int]⟩⟩
    vars := #[⟨⟨2⟩, .int, none⟩, ⟨⟨3⟩, ⟨3⟩, none⟩]
    exprs := #[⟨.ident ⟨1⟩, ⟨3⟩⟩, ⟨.paren ⟨0⟩, ⟨3⟩⟩, ⟨.intLit 1, .int⟩, ⟨.paren ⟨2⟩, .int⟩,
      ⟨.index ⟨1⟩ ⟨3⟩, .int⟩, ⟨.paren ⟨4⟩, .int⟩, ⟨.paren ⟨5⟩, .int⟩, ⟨.intLit 5, .int⟩,
      ⟨.paren ⟨7⟩, .int⟩, ⟨.binary .assign ⟨6⟩ ⟨8⟩, .int⟩, ⟨.binary .add ⟨1⟩ ⟨3⟩, ⟨4⟩⟩,
      ⟨.paren ⟨10⟩, ⟨4⟩⟩, ⟨.unary .deref ⟨11⟩, .int⟩, ⟨.paren ⟨12⟩, .int⟩,
      ⟨.call ⟨0⟩ [⟨13⟩], .void⟩, ⟨.paren ⟨13⟩, .int⟩]
    stmts := #[.expr ⟨9⟩, .expr ⟨14⟩, .branch ⟨15⟩ ⟨1⟩ none, .return (some ⟨13⟩),
      .compound [⟨0⟩, ⟨2⟩, ⟨3⟩]]
    funcs := #[⟨⟨1⟩, [⟨0⟩], .void, none⟩, ⟨⟨4⟩, [], .int, some ⟨4⟩⟩]
    topLevel := #[.function ⟨0⟩, .variable ⟨1⟩, .function ⟨1⟩] }
  setup := {
    primitives := ({} : Std.TreeMap Nat Primitive).insert 0 .print
    lastMain := some ⟨1⟩
    globals := [⟨1⟩]
    definitions := ({} : Std.TreeMap Nat FuncId).insert 4 ⟨1⟩
    entry := ⟨1⟩ }

/-- Both programs print the element that they assigned, and afterwards the element has the same
value, whether it is looked at with parentheses or without them. -/
theorem parentheses_transparent_wrapped :
    (Program.ofConstructions wrappedSteps).2 = wrapped.program ∧
    wrapped.program.unparen ⟨15⟩ = ⟨12⟩ ∧
    wrapped.unwrapped.program.expr? ⟨12⟩ = some ⟨.unary .deref ⟨10⟩, .int⟩ ∧
    ∃ s' t' u u', wrapped.Ends .run {} (.ok (.int 5)) s' ∧
      wrapped.unwrapped.Ends .run {} (.ok (.int 5)) t' ∧ wrapped.program.Agree s' t' ∧
      t'.printer.lines = #["5"] ∧
      wrapped.Ends (.evaluate ⟨15⟩) s' (.ok (.int 5)) u ∧
      wrapped.unwrapped.Ends (.evaluate ⟨12⟩) t' (.ok (.int 5)) u' ∧
      wrapped.program.Agree u u' := by
  have steps : (Program.ofConstructions wrappedSteps).2 = wrapped.program := by decide +kernel
  have fit : Program.StepsFit {} wrappedSteps := by decide +kernel
  have built : wrapped.program.Built := steps ▸ Program.built_ofConstructions fit
  have under : wrapped.program.unparen ⟨15⟩ = ⟨12⟩ := by decide
  have ends : ∃ s' u, wrapped.Ends .run {} (.ok (.int 5)) s' ∧ s'.printer.lines = #["5"] ∧
      wrapped.Ends (.evaluate ⟨15⟩) s' (.ok (.int 5)) u := ⟨_, _, ⟨12, rfl⟩, rfl, ⟨9, rfl⟩⟩
  obtain ⟨s', u, ran, lines, evaluated⟩ := ends
  obtain ⟨-, runs, -, evaluations⟩ := parentheses_transparent built
  obtain ⟨t', ran', agree⟩ := runs.forth (.refl wrapped.congruence_parens {}) ran
  have evaluations := (evaluations ⟨15⟩).2
  rw [under] at evaluations
  obtain ⟨u', evaluated', agree'⟩ := evaluations.forth agree evaluated
  have replaced : wrapped.unwrapped.program.expr? ⟨12⟩ = some ⟨.unary .deref ⟨10⟩, .int⟩ :=
    (wrapped.program.expr?_unwrapped ⟨12⟩).trans (by decide)
  exact ⟨steps, under, replaced, s', t', u, u', ran, ran', agree, agree.printer ▸ lines, evaluated,
    evaluated', agree'⟩

end CellC
